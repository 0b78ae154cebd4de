import RaggedTrajectory.Number.Natural
import RaggedTrajectory.Path

/-!
# Arguments of the inspection tool

The tool takes one file and some options. An option is given once, by its long name or by its
letter; letters can be put together behind one dash, and the value of the last one may follow
directly. After two dashes alone there are no more options.
-/

namespace RaggedTrajectory.Inspection

/-- What the tool is asked to show. -/
structure Request where
  file : Path
  /-- Whether the steps are listed. -/
  steps : Bool
  /-- The field whose values are shown. -/
  field : Option String
  /-- How many values are shown. -/
  limit : Nat
  /-- Whether the file is verified. -/
  verify : Bool
  deriving DecidableEq, Repr

/-- Why there is nothing to do. -/
inductive Stop where
  /-- The arguments ask how the tool is used. -/
  | help
  /-- The arguments are wrong. -/
  | misuse
  deriving DecidableEq, Repr

/-- The arguments so far. -/
structure Draft where
  file : Option String := none
  steps : Bool := false
  field : Option String := none
  limit : Option Nat := none
  verify : Bool := false

/-- The number of values shown if no other is asked for. -/
def defaultLimit : Nat := 20

/-- The numbers that a limit can be: decimal digits of a number below `2 ^ 64`, with a plus sign or
without. -/
def limit? (text : String) : Option Nat :=
  let chars := text.toList
  let digits := if chars.head? = some '+' then chars.drop 1 else chars
  let value := digits.foldl (fun n c => n * 10 + (c.toNat - '0'.toNat)) 0
  if digits ≠ [] ∧ digits.all Char.isDigit ∧ value < 2 ^ 64 then some value else none

/-- The options of the tool. -/
inductive Switch where
  | steps
  | field
  | limit
  | verify
  | help
  deriving DecidableEq, Repr

namespace Switch

/-- The option with a given long name. -/
def ofName? : String → Option Switch
  | "steps" => some steps
  | "field" => some field
  | "limit" => some limit
  | "verify" => some verify
  | "help" => some help
  | _ => none

/-- The option with a given letter. -/
def ofLetter? : Char → Option Switch
  | 's' => some steps
  | 'f' => some field
  | 'h' => some help
  | _ => none

/-- Whether an option has a value. -/
def hasValue : Switch → Bool
  | field | limit => true
  | _ => false

end Switch

namespace Draft

/-- Takes the file. -/
def withFile (draft : Draft) (file : String) : Except Stop Draft :=
  if draft.file.isSome ∨ file = "" then .error .misuse else .ok { draft with file := some file }

/-- Takes an option that has no value. -/
def switchOn (draft : Draft) : Switch → Except Stop Draft
  | .steps => if draft.steps then .error .misuse else .ok { draft with steps := true }
  | .verify => if draft.verify then .error .misuse else .ok { draft with verify := true }
  | .help => .error .help
  | _ => .error .misuse

/-- Takes an option with its value. -/
def withValue (draft : Draft) (option : Switch) (value : String) : Except Stop Draft :=
  match option with
  | .field =>
    if draft.field.isSome then .error .misuse else .ok { draft with field := some value }
  | .limit =>
    match draft.limit, limit? value with
    | none, some limit => .ok { draft with limit := some limit }
    | _, _ => .error .misuse
  | _ => .error .misuse

/-- Takes letters behind a dash, and gives the option that still waits for its value. -/
def withLetters (draft : Draft) : List Char → Except Stop (Draft × Option Switch)
  | [] => .ok (draft, none)
  | letter :: rest =>
    match Switch.ofLetter? letter with
    | none => .error .misuse
    | some option =>
      if option.hasValue then
        match rest with
        | [] => .ok (draft, some option)
        | '=' :: value =>
          (draft.withValue option (String.ofList value)).map fun draft => (draft, none)
        | value => (draft.withValue option (String.ofList value)).map fun draft => (draft, none)
      else (draft.switchOn option).bind fun draft => draft.withLetters rest

/-- Takes a long name, with its value behind an equals sign if there is one, and gives the option
that still waits for its value. -/
def withName (draft : Draft) (text : List Char) : Except Stop (Draft × Option Switch) :=
  let name := text.takeWhile (· ≠ '=')
  match Switch.ofName? (String.ofList name), text.drop name.length with
  | none, _ => .error .misuse
  | some option, [] =>
    if option.hasValue then .ok (draft, some option)
    else (draft.switchOn option).map fun draft => (draft, none)
  | some option, _ :: value =>
    if option.hasValue then
      (draft.withValue option (String.ofList value)).map fun draft => (draft, none)
    else .error .misuse

end Draft

/-- Whether an argument is an option: it starts with a dash and is more than that. -/
def isOption (argument : String) : Bool :=
  argument.toList.head? = some '-' ∧ argument ≠ "-"

/-- Takes the arguments one after another; `waiting` is an option that waits for its value. -/
def takeArguments (draft : Draft) (waiting : Option Switch) : List String → Except Stop Draft
  | [] => if waiting.isSome then .error .misuse else .ok draft
  | argument :: rest =>
    match waiting with
    | some option =>
      if isOption argument then .error .misuse
      else (draft.withValue option argument).bind fun draft => takeArguments draft none rest
    | none =>
      if argument = "--" then rest.foldlM Draft.withFile draft
      else
        match argument.toList with
        | '-' :: '-' :: name =>
          (draft.withName name).bind fun (draft, waiting) => takeArguments draft waiting rest
        | '-' :: c :: letters =>
          (draft.withLetters (c :: letters)).bind fun (draft, waiting) =>
            takeArguments draft waiting rest
        | _ => (draft.withFile argument).bind fun draft => takeArguments draft none rest

/-- The request that arguments make. -/
def Request.ofArguments (arguments : List String) : Except Stop Request := do
  let draft ← takeArguments {} none arguments
  match draft.file with
  | none => throw .misuse
  | some file =>
    return ⟨⟨file⟩, draft.steps, draft.field, draft.limit.getD defaultLimit, draft.verify⟩

end RaggedTrajectory.Inspection
