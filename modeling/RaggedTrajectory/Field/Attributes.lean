import RaggedTrajectory.Number.Decimal
import RaggedTrajectory.Text.Quoted

/-!
# Attributes

Attributes describe a file or a variable: a list of named values in the order in which the names
were first set. Setting a name again keeps its place.

* `Attributes.get?_set`: a value that was set is found, and no other value changes.
* `Attributes.keys_set`: a new name goes to the end, an old one stays where it is.
-/

namespace RaggedTrajectory

/-- The value of an attribute. -/
inductive AttributeValue where
  | integer (value : Int64)
  | float (value : Binary64)
  | text (value : String)
  | integers (values : List Int64)
  | floats (values : List Binary64)
  deriving DecidableEq, Repr

namespace AttributeValue

/-- A number that stands alone is shown in full, without an exponent. -/
def plainStyle : DecimalStyle := ⟨false, false, false, "NaN", "inf"⟩

/-- A number in a list shows that it is no integer, and very large or small ones get an exponent. -/
def listStyle : DecimalStyle := ⟨true, true, false, "NaN", "inf"⟩

/-- The value as it is shown to a reader: text between quotation marks, lists between brackets. -/
def shown : AttributeValue → String
  | integer value => toString value.toInt
  | float value => plainStyle.render value
  | text value => Text.quote value
  | integers values => Text.bracketed (values.map fun value => toString value.toInt)
  | floats values => Text.bracketed (values.map listStyle.render)

end AttributeValue

/-- Named values in the order of their first setting. -/
structure Attributes where
  entries : List (String × AttributeValue)
  deriving DecidableEq, Repr

namespace Attributes

/-- No attributes. -/
def empty : Attributes := ⟨[]⟩

instance : Inhabited Attributes := ⟨empty⟩

/-- The names in their order. -/
def keys (attributes : Attributes) : List String := attributes.entries.map Prod.fst

/-- The number of entries. -/
def length (attributes : Attributes) : Nat := attributes.entries.length

/-- Puts `value` in the place of the first entry named `key`, or at the end if there is none. -/
def setEntry (key : String) (value : AttributeValue) :
    List (String × AttributeValue) → List (String × AttributeValue)
  | [] => [(key, value)]
  | (k, v) :: rest => if k = key then (k, value) :: rest else (k, v) :: setEntry key value rest

/-- Sets an attribute, in its old place if it has one. -/
def set (attributes : Attributes) (key : String) (value : AttributeValue) : Attributes :=
  ⟨setEntry key value attributes.entries⟩

/-- The value of an attribute. -/
def get? (attributes : Attributes) (key : String) : Option AttributeValue :=
  (attributes.entries.find? fun entry => entry.1 = key).map Prod.snd

/-- Attributes set one after the other, from none. -/
def ofList (entries : List (String × AttributeValue)) : Attributes :=
  entries.foldl (fun attributes (key, value) => attributes.set key value) empty

theorem get?_set (attributes : Attributes) (key other : String) (value : AttributeValue) :
    (attributes.set key value).get? other =
      if key = other then some value else attributes.get? other := by
  obtain ⟨entries⟩ := attributes
  simp only [set, get?]
  induction entries with
  | nil => by_cases h : key = other <;> simp [setEntry, h]
  | cons entry rest ih =>
    obtain ⟨k, v⟩ := entry
    by_cases hk : k = key
    · subst hk
      by_cases h : k = other <;> simp [setEntry, h]
    · by_cases ho : k = other
      · subst ho
        simp [setEntry, hk, Ne.symm hk]
      · simpa [setEntry, hk, ho] using ih

theorem keys_set (attributes : Attributes) (key : String) (value : AttributeValue) :
    (attributes.set key value).keys =
      if key ∈ attributes.keys then attributes.keys else attributes.keys ++ [key] := by
  obtain ⟨entries⟩ := attributes
  simp only [set, keys]
  induction entries with
  | nil => simp [setEntry]
  | cons entry rest ih =>
    obtain ⟨k, v⟩ := entry
    by_cases hk : k = key
    · simp [setEntry, hk]
    · have hne : ¬ key = k := fun h => hk h.symm
      by_cases hm : key ∈ rest.map Prod.fst
      · have ih' : (setEntry key value rest).map Prod.fst = rest.map Prod.fst := by
          rw [ih]; exact if_pos hm
        have hm' : key ∈ k :: rest.map Prod.fst := List.mem_cons_of_mem _ hm
        simp only [setEntry, hk, if_false, List.map_cons, ih']
        exact (if_pos hm').symm
      · have ih' : (setEntry key value rest).map Prod.fst = rest.map Prod.fst ++ [key] := by
          rw [ih]; exact if_neg hm
        have hm' : ¬ key ∈ k :: rest.map Prod.fst := by simp [hne] at hm ⊢; exact hm
        simp only [setEntry, hk, if_false, List.map_cons, ih']
        exact (if_neg hm').symm

end Attributes

end RaggedTrajectory
