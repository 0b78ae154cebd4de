import RaggedTrajectory.Json.Numeral
import RaggedTrajectory.Text.Utf8

/-!
# Values read as data

What is needed to read a JSON value as data of a known type: texts, integers, lists, one of several
names, and records. A record is an object whose unknown members are ignored, or a list of its
fields in order.

The writers beside them make the values that are read back.
-/

namespace RaggedTrajectory.Json

namespace Value

/-- The value of a text. -/
def ofText (text : String) : Value := .string (Utf8.encode text)

/-- The value of an integer. -/
def ofInt (n : Int) : Value := .number (Numeral.renderInteger n)

/-- The value of a number in double precision. What is no finite number becomes `null`. -/
def ofFloat (x : Binary64) : Value :=
  match x.datum with
  | .finite .. => .number (Ascii.bytes (Numeral.floatStyle.render x))
  | _ => .null

/-- An object with named members. -/
def ofMembers (members : List (String × Value)) : Value :=
  .object (members.map fun (key, value) => (Utf8.encode key, value))

/-- The text that a string holds. -/
def text? : Value → Option String
  | string content => Utf8.decode? content
  | _ => none

/-- The integer that a number stands for. -/
def integer? : Value → Option Int
  | number lexeme =>
    match Numeral.ofLexeme? lexeme with
    | some (.integer n) => some n
    | _ => none
  | _ => none

/-- The natural number of at most 64 bits that a number stands for. -/
def word? (value : Value) : Option Nat :=
  match value.integer? with
  | some n => if 0 ≤ n ∧ n < 2 ^ 64 then some n.toNat else none
  | none => none

/-- The signed integer of 64 bits that a number stands for. -/
def int64? (value : Value) : Option Int64 :=
  match value.integer? with
  | some n => if -2 ^ 63 ≤ n ∧ n < 2 ^ 63 then some (Int64.ofInt n) else none
  | none => none

/-- The number in double precision. -/
def float? : Value → Option Binary64
  | number lexeme =>
    match Numeral.ofLexeme? lexeme with
    | some (.integer n) => some (Binary64.ofInt n)
    | some (.float x) => some x
    | none => none
  | _ => none

/-- The items of a list, each read by `read`. -/
def list? {α : Type} (read : Value → Option α) : Value → Option (List α)
  | array items => items.mapM read
  | _ => none

/-- The two items of a pair. -/
def pair? {α β : Type} (first : Value → Option α) (second : Value → Option β) :
    Value → Option (α × β)
  | array [a, b] => do return (← first a, ← second b)
  | _ => none

/-- What may be missing where a value is read; `null` stands for nothing as well. -/
def nullable? {α : Type} (read : Value → Option α) : Option Value → Option (Option α)
  | none | some .null => some none
  | some value => (read value).map some

/-- One of several named constants: its name as a text, or an object whose only member has that
name and no value. -/
def constant? {α : Type} (ofName : String → Option α) : Value → Option α
  | string content => (Utf8.decode? content).bind ofName
  | object [(key, null)] => (Utf8.decode? key).bind ofName
  | _ => none

/-- Whether a field of a record may be left out. -/
inductive Presence where
  | required
  /-- A member that is left out counts as nothing; an item of a list may not be left out. -/
  | nullable
  /-- The field may be left out in either form. -/
  | optional
  deriving DecidableEq

/-- The fields of a record among named members: each name at most once, and once if required. -/
def fieldsOfMembers? (members : List (String × Value)) :
    List (String × Presence) → Option (List (Option Value))
  | [] => some []
  | (name, presence) :: rest =>
    match members.filter fun member => member.1 = name with
    | [] =>
      if presence = .required then none
      else (fieldsOfMembers? members rest).map (none :: ·)
    | [(_, value)] => (fieldsOfMembers? members rest).map (some value :: ·)
    | _ => none

/-- The fields of a record among items in order. -/
def fieldsOfItems? : List Value → List (String × Presence) → Option (List (Option Value))
  | [], [] => some []
  | _ :: _, [] => none
  | [], (_, presence) :: rest =>
    if presence = .optional then (fieldsOfItems? [] rest).map (none :: ·) else none
  | item :: items, _ :: rest => (fieldsOfItems? items rest).map (some item :: ·)

/-- Members whose keys are read as texts. -/
def namedMembers? (members : List (Bytes × Value)) : Option (List (String × Value)) :=
  members.mapM fun (key, value) => (Utf8.decode? key).map fun key => (key, value)

/-- The fields of a record, in the order of their names. -/
def fields? (names : List (String × Presence)) : Value → Option (List (Option Value))
  | object members => (namedMembers? members).bind fun members => fieldsOfMembers? members names
  | array items => fieldsOfItems? items names
  | _ => none

end Value

end RaggedTrajectory.Json
