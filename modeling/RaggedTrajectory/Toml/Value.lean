/-!
# Values of TOML documents

A table remembers how it came to be, because this decides what may still be added to it: a header
declares a table once, a longer header implies the tables on its way, a dotted key adds to the
tables that dotted keys made, and what stands between braces is closed.

* `insertDotted_nil`: a key without dots goes to the table itself, unless it is taken.
-/

namespace RaggedTrajectory.Toml

/-- How a table came to be. -/
inductive TableKind where
  /-- By a header of its own, or as the document. -/
  | declared
  /-- By a header of a table inside it. -/
  | implied
  /-- By a dotted key. -/
  | dotted
  /-- Between braces. -/
  | closed
  deriving DecidableEq, Repr

/-- A value. -/
inductive Value where
  | text (content : String)
  | boolean (value : Bool)
  /-- A number or a moment. No setting is one, so that only its form is checked. -/
  | scalar
  | array (items : List Value)
  | table (kind : TableKind) (members : List (String × Value))
  /-- The tables of the headers in double brackets. -/
  | tables (elements : List (List (String × Value)))

/-- The members of a table. -/
abbrev Members := List (String × Value)

namespace Members

/-- The members with another value for a key that is there. -/
def replace (members : Members) (key : String) (value : Value) : Members :=
  members.map fun entry => if entry.1 = key then (key, value) else entry

/-- Adds a value under a key. Tables on the way are made as dotted keys make them; a table that a
header declared or braces closed takes nothing from outside, and one that a header implied takes
only tables. -/
def insertDotted (key : String) (value : Value) : (path : List String) → Members → Option Members
  | [], members =>
    match members.lookup key with
    | none => some (members ++ [(key, value)])
    | some _ => none
  | name :: path, members =>
    match members.lookup name with
    | none =>
      (insertDotted key value path []).map fun inner =>
        members ++ [(name, .table .dotted inner)]
    | some (.table .dotted inner) =>
      (insertDotted key value path inner).map fun inner =>
        members.replace name (.table .dotted inner)
    | some (.table .implied inner) =>
      if path = [] then none
      else
        (insertDotted key value path inner).map fun inner =>
          members.replace name (.table .implied inner)
    | some (.tables elements) =>
      if path = [] then none
      else
        (insertDotted key value path (elements.getLast?.getD [])).map fun inner =>
          members.replace name (.tables (elements.dropLast ++ [inner]))
    | some _ => none

/-- Changes the members of the table that a header names. Tables on the way are implied where they
are missing; of the tables in double brackets the last one is meant. -/
def updateAt (change : Members → Option Members) : (path : List String) → Members → Option Members
  | [], members => change members
  | name :: path, members =>
    match members.lookup name with
    | none =>
      (updateAt change path []).map fun inner => members ++ [(name, .table .implied inner)]
    | some (.table kind inner) =>
      if kind = .closed then none
      else
        (updateAt change path inner).map fun inner =>
          members.replace name (.table kind inner)
    | some (.tables elements) =>
      (updateAt change path (elements.getLast?.getD [])).map fun inner =>
        members.replace name (.tables (elements.dropLast ++ [inner]))
    | some _ => none

/-- Declares a table. It may have been implied, and no more. -/
def declare (name : String) (members : Members) : Option Members :=
  match members.lookup name with
  | none => some (members ++ [(name, .table .declared [])])
  | some (.table .implied inner) => some (members.replace name (.table .declared inner))
  | some _ => none

/-- Starts one more of the tables in double brackets. -/
def declareNext (name : String) (members : Members) : Option Members :=
  match members.lookup name with
  | none => some (members ++ [(name, .tables [[]])])
  | some (.tables elements) => some (members.replace name (.tables (elements ++ [[]])))
  | some _ => none

theorem insertDotted_nil {key : String} {members : Members} (value : Value)
    (new : members.lookup key = none) :
    insertDotted key value [] members = some (members ++ [(key, value)]) := by
  simp [insertDotted, new]

end Members

namespace Value

/-- The text of a value. -/
def text? : Value → Option String
  | text content => some content
  | _ => none

/-- The truth value of a value. -/
def boolean? : Value → Option Bool
  | boolean value => some value
  | _ => none

/-- Whether a value holds nothing. -/
def isVoid : Value → Bool
  | array [] | table _ [] => true
  | _ => false

/-- One of several named choices: its name, or a table with the name as its only key and nothing
under it. -/
def choice? {α : Type} (ofName? : String → Option α) : Value → Option α
  | text name => ofName? name
  | table _ [(name, value)] => if value.isVoid then ofName? name else none
  | _ => none

end Value

end RaggedTrajectory.Toml
