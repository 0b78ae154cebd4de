import Mathlib.Data.Finset.Card
import Mathlib.Data.List.Induction
import RaggedTrajectory.Field.Attributes

/-!
# Attributes are a map that remembers its order

Setting an attribute puts its value into the place of an earlier one of the same name, or behind all
the others. So after any row of settings every name is there once, the names stand in the order in
which they were first set, and each of them has the value it was set to last.

* `Attributes.getElem?_set_ne`: the entries of other names keep their values and their places.
* `Attributes.isLast_concat_iff`: which value is the last one after one more setting.
* `Attributes.ordersFirst_keys_ofList`: the order of the names.
* `Attributes.isMapOf_ofList`: attributes after any row of settings.
-/

namespace RaggedTrajectory

namespace Attributes

/-! ## One setting -/

/-- An attribute that is set leaves all entries of other names where they are, as they are. -/
theorem getElem?_set_ne (attributes : Attributes) {key other : String} (value : AttributeValue)
    (different : other ≠ key) (index : Nat) (old : AttributeValue) :
    (attributes.set key value).entries[index]? = some (other, old) ↔
      attributes.entries[index]? = some (other, old) := by
  obtain ⟨entries⟩ := attributes
  show (setEntry key value entries)[index]? = _ ↔ entries[index]? = _
  induction entries generalizing index with
  | nil => cases index <;> simp [setEntry, different.symm]
  | cons entry entries ih =>
    obtain ⟨own, held⟩ := entry
    by_cases same : own = key
    · -- The value is put in here, and the entries behind it are not looked at.
      subst same
      cases index <;> simp [setEntry, different.symm]
    · rw [setEntry, if_neg same]
      cases index with
      | zero => rfl
      | succ index => exact ih index

/-! ## Entries and keys -/

section Entries

variable {attributes : Attributes} {key : String}

theorem get?_eq_none_iff : attributes.get? key = none ↔ key ∉ attributes.keys := by
  rw [get?, Option.map_eq_none_iff, List.find?_eq_none, keys, List.mem_map]
  simp only [decide_eq_true_eq, not_exists, not_and]

/-- Where names are distinct, the value of a name is the one that is listed with it. -/
theorem mem_entries_iff (distinct : attributes.keys.Nodup) {value : AttributeValue} :
    (key, value) ∈ attributes.entries ↔ attributes.get? key = some value := by
  obtain ⟨entries⟩ := attributes
  constructor
  · intro mem
    induction entries with
    | nil => cases mem
    | cons entry entries ih =>
      obtain ⟨new, others⟩ := List.nodup_cons.1 distinct
      rcases List.mem_cons.1 mem with rfl | behind
      · simp [get?]
      · -- The first entry is of another name, so it is not the one that is found.
        have apart : entry.1 ≠ key := by
          rintro rfl
          exact new (List.mem_map.2 ⟨_, behind, rfl⟩)
        rw [get?, List.find?_cons_of_neg (by simpa using apart)]
        exact ih others behind
  · intro found
    obtain ⟨⟨own, held⟩, first, rfl⟩ := Option.map_eq_some_iff.1 found
    obtain rfl : own = key := by simpa using List.find?_some first
    exact List.mem_of_find?_eq_some first

end Entries

/-! ## A row of settings -/

section Settings

variable {calls : List (String × AttributeValue)} {key : String} {value : AttributeValue}

theorem ofList_concat (calls : List (String × AttributeValue)) (last : String × AttributeValue) :
    ofList (calls ++ [last]) = (ofList calls).set last.1 last.2 := by
  rw [ofList, List.foldl_append]
  rfl

/-- A value is the last one of a name: the name was set to it, and not set again. -/
def IsLast (calls : List (String × AttributeValue)) (key : String) (value : AttributeValue) :
    Prop :=
  ∃ before after, calls = before ++ (key, value) :: after ∧ key ∉ after.map Prod.fst

/-- One more setting gives the last value of its name. Other names keep theirs. -/
theorem isLast_concat_iff {last : String × AttributeValue} :
    IsLast (calls ++ [last]) key value ↔
      last = (key, value) ∨ last.1 ≠ key ∧ IsLast calls key value := by
  constructor
  · rintro ⟨before, after, parts, free⟩
    -- The last setting of the name is the new one, or the new one is behind it.
    rcases after.eq_nil_or_concat' with rfl | ⟨after, final, rfl⟩
    · exact .inl (List.singleton_inj.1 (List.append_inj' parts rfl).2)
    · rw [← List.cons_append, ← List.append_assoc] at parts
      obtain ⟨rfl, same⟩ := List.append_inj' parts rfl
      obtain rfl := List.singleton_inj.1 same
      rw [List.map_append, List.mem_append, not_or] at free
      exact .inr ⟨fun own => free.2 (by simp [own]), before, after, rfl, free.1⟩
  · rintro (rfl | ⟨other, before, after, rfl, free⟩)
    · exact ⟨calls, [], rfl, List.not_mem_nil⟩
    · refine ⟨before, after ++ [last], by simp, ?_⟩
      simpa [Ne.symm other] using free

/-- Each name has the value that it was set to last. -/
theorem get?_ofList_eq_some_iff :
    (ofList calls).get? key = some value ↔ IsLast calls key value := by
  induction calls using List.reverseRecOn with
  | nil =>
    constructor
    · intro found
      cases found
    · rintro ⟨before, after, parts, -⟩
      simp at parts
  | append_singleton calls last ih =>
    obtain ⟨own, held⟩ := last
    rw [ofList_concat, get?_set, isLast_concat_iff, ← ih]
    by_cases same : own = key <;> simp [same]

/-- Names are listed in the order in which they first occur in a row: those of the row, and each of
them before those that first occur later. -/
structure OrdersFirst (names keys : List String) : Prop where
  mem : ∀ key, key ∈ keys ↔ key ∈ names
  ordered : keys.Pairwise fun first second => names.idxOf first < names.idxOf second

namespace OrdersFirst

variable {names keys : List String}

/-- No name is before itself, so none is listed twice. -/
theorem nodup (orders : OrdersFirst names keys) : keys.Nodup :=
  orders.ordered.imp fun {_ _} before same => absurd before (by rw [same]; exact Nat.lt_irrefl _)

/-- What comes behind a row does not change where its names first occur. -/
theorem pairwise_concat (orders : OrdersFirst names keys) (last : String) :
    keys.Pairwise fun first second =>
      (names ++ [last]).idxOf first < (names ++ [last]).idxOf second := by
  refine orders.ordered.imp_of_mem fun {first second} mem also before => ?_
  rw [List.idxOf_append_of_mem ((orders.mem first).1 mem),
    List.idxOf_append_of_mem ((orders.mem second).1 also)]
  exact before

theorem concat_of_mem (orders : OrdersFirst names keys) {last : String} (old : last ∈ keys) :
    OrdersFirst (names ++ [last]) keys where
  mem key := by
    rw [List.mem_append, List.mem_singleton, ← orders.mem]
    exact ⟨.inl, fun mem => mem.elim id fun same => same ▸ old⟩
  ordered := orders.pairwise_concat last

theorem concat_of_notMem (orders : OrdersFirst names keys) {last : String} (new : last ∉ keys) :
    OrdersFirst (names ++ [last]) (keys ++ [last]) where
  mem key := by rw [List.mem_append, List.mem_append, orders.mem]
  ordered := by
    refine List.pairwise_append.2 ⟨orders.pairwise_concat last, List.pairwise_singleton _ _, ?_⟩
    intro first mem second same
    obtain rfl := List.mem_singleton.1 same
    have old : first ∈ names := (orders.mem first).1 mem
    -- The new name first occurs at the end, behind all the others.
    have behind : second ∉ names := fun mem => new ((orders.mem second).2 mem)
    rw [List.idxOf_append_of_mem old, List.idxOf_append_of_notMem behind]
    exact Nat.lt_of_lt_of_le (List.idxOf_lt_length_of_mem old) (Nat.le_add_right _ _)

/-- There are as many names as different ones occur in the row. -/
theorem length_eq (orders : OrdersFirst names keys) : keys.length = names.toFinset.card := by
  rw [← List.toFinset_card_of_nodup orders.nodup]
  congr 1
  ext key
  rw [List.mem_toFinset, List.mem_toFinset, orders.mem]

end OrdersFirst

/-- The names of attributes are listed in the order in which they were first set. -/
theorem ordersFirst_keys_ofList (calls : List (String × AttributeValue)) :
    OrdersFirst (calls.map Prod.fst) (ofList calls).keys := by
  induction calls using List.reverseRecOn with
  | nil => exact ⟨fun key => Iff.rfl, List.Pairwise.nil⟩
  | append_singleton calls last ih =>
    rw [List.map_append, List.map_singleton, ofList_concat, keys_set]
    -- A name that was set before keeps its place, a new one goes to the end.
    split
    · next old => exact ih.concat_of_mem old
    · next new => exact ih.concat_of_notMem new

end Settings

/-! ## All of it -/

/-- Attributes are the map that a row of settings describes, in the order of the first settings. -/
structure IsMapOf (attributes : Attributes) (calls : List (String × AttributeValue)) : Prop where
  distinct : attributes.keys.Nodup
  /-- The names are those that were set, and one that was first set earlier stands earlier. -/
  order : OrdersFirst (calls.map Prod.fst) attributes.keys
  value : ∀ key value, attributes.get? key = some value ↔ IsLast calls key value
  missing : ∀ key, attributes.get? key = none ↔ key ∉ calls.map Prod.fst
  /-- What is listed with a name is its value. -/
  listed : ∀ key value, (key, value) ∈ attributes.entries ↔ attributes.get? key = some value
  length : attributes.length = (calls.map Prod.fst).toFinset.card
  /-- Setting one more name leaves the others with their values in their places. -/
  others : ∀ key value other, other ≠ key →
    (attributes.set key value).get? other = attributes.get? other ∧
      ∀ (index : Nat) (old : AttributeValue),
        (attributes.set key value).entries[index]? = some (other, old) ↔
          attributes.entries[index]? = some (other, old)

/-- Attributes that are set one after the other, with names that come again in any order, are a map
in the order of first settings. -/
theorem isMapOf_ofList (calls : List (String × AttributeValue)) : (ofList calls).IsMapOf calls := by
  have order := ordersFirst_keys_ofList calls
  refine ⟨order.nodup, order, fun key value => get?_ofList_eq_some_iff, fun key => ?_,
    fun key value => mem_entries_iff order.nodup, ?_, fun key value other different => ⟨?_, ?_⟩⟩
  · rw [get?_eq_none_iff, order.mem]
  · rw [← order.length_eq, length, keys, List.length_map]
  · rw [get?_set, if_neg different.symm]
  · exact getElem?_set_ne _ value different

/-- The first name is set again, after the second one. -/
example :
    ofList [("units", .text "m"), ("axis", .text "x"), ("units", .text "km")] =
      ⟨[("units", .text "km"), ("axis", .text "x")]⟩ := rfl

end Attributes

end RaggedTrajectory
