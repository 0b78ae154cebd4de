import RaggedTrajectory.Inspection.Arguments
import RaggedTrajectory.Reader

/-!
# Reports on files

A report shows what a file says about itself, and on request its steps, the values of a field, and
whether it is sound. It ends at the first failure; what was shown before stays.
-/

namespace RaggedTrajectory

/-- An error and the errors that caused it, in words. -/
def Error.chain (e : Error) : List String :=
  match e with
  | .refused refusal => [e.message, refusal.message]
  | .serialization => [e.message, "the text does not have the expected form"]
  | _ => [e.message]

namespace Inspection

/-- A text at the right end of a column. -/
def rightAligned (width : Nat) (text : String) : String :=
  String.ofList (List.replicate (width - text.length) ' ') ++ text

/-- Why a report ends early. -/
inductive Failure where
  | unopened (file : Path) (cause : Error)
  | unreadField (name : String) (cause : Error)
  | unverified (cause : Error)
  | other (cause : Error)
  deriving DecidableEq, Repr

namespace Failure

/-- The error that ended the report. -/
def cause : Failure → Error
  | unopened _ cause | unreadField _ cause | unverified cause | other cause => cause

/-- What went wrong, and why, from the outside in. -/
def chain : Failure → List String
  | unopened file cause => s!"failed to open {Text.quoteWith true file.text}" :: cause.chain
  | unreadField name cause => s!"failed to read field '{name}'" :: cause.chain
  | unverified cause => [s!"verification failed: {cause.message}"]
  | other cause => cause.chain

/-- A text whose lines after the first are indented. -/
def indented (indent : String) (text : String) : String :=
  String.ofList (text.toList.flatMap fun c => if c = '\n' then '\n' :: indent.toList else [c])

/-- Causes below one another; several are numbered from zero. -/
def listed : List String → String
  | [] => ""
  | [cause] => "\n    " ++ indented "    " cause
  | causes =>
    String.join (causes.zipIdx.map fun (cause, i) =>
      "\n" ++ rightAligned 5 (toString i) ++ ": " ++ indented "       " cause)

/-- The whole story of a failure. -/
def message (failure : Failure) : String :=
  match failure.chain with
  | [] => ""
  | [what] => s!"Error: {what}"
  | what :: causes => s!"Error: {what}\n\nCaused by:{listed causes}"

end Failure

/-- A report under way: the text so far. -/
abbrev Report := ExceptT Failure (StateM String)

/-- Adds a line to a report. -/
def say (line : String) : Report Unit := modify (· ++ line ++ "\n")

/-- The result of a reader, or the failure it means. -/
def orFail {α : Type} (failure : Error → Failure) : Except Error α → Report α
  | .ok a => pure a
  | .error e => throw (failure e)

/-- The header. -/
def sayHeader (file : Path) (header : Header) : Report Unit := do
  say s!"file: {file.text}"
  say (s!"format: {header.format.title} v{header.versionMajor.toNat}." ++
    s!"{header.versionMinor.toNat}  codec: {header.codec.title}")
  say (s!"steps written: {header.stepsWritten.toNat}/{header.stepCount.toNat}  " ++
    s!"records: {header.recordLength.toNat}")

/-- The schema block. -/
def saySchema (schema : FileSchema) (recordLength : UInt64) : Report Unit := do
  say "\nglobal attributes:"
  for (key, value) in schema.globalAttributes.entries do
    say s!"  {key} = {value.shown}"
  say "\ndimensions:"
  for dimension in schema.dimensions do
    match dimension.length with
    | some length => say s!"  {dimension.name} = {length.toNat}"
    | none => say s!"  {dimension.name} = UNLIMITED ({recordLength.toNat} currently)"
  say "\nvariables:"
  for declared in schema.declarations do
    let axes := ", ".intercalate declared.dimensions
    say s!"  {declared.dtype.name} {declared.name}({axes})"
    for (key, value) in declared.attributes.entries do
      say s!"    {declared.name}:{key} = {value.shown}"

/-- One line for each step. -/
def saySteps (overflow : Overflow) (reader : Reader) : Report Unit := do
  say "\nsteps:"
  let stamps ← orFail .other reader.timestamps
  for ((entry, stamp), step) in (reader.entries.zip stamps).zipIdx do
    let number := rightAligned 5 (toString step)
    match stamp with
    | some time =>
      let count := rightAligned 8 (toString entry.particleCount.toInt)
      let range ← orFail .other (entry.recordRange overflow)
      say (s!"  {number}  {time.format}  count {count}  " ++
        s!"records [{range.1.toNat}, {range.2.toNat})")
    | none => say s!"  {number}  (not written)"

/-- The first values of a field. -/
def sayField (reader : Reader) (name : String) (limit : Nat) : Report Unit := do
  let data ← orFail (.unreadField name) (reader.readField name)
  say s!"\n{name} ({data.length} values):"
  for (value, i) in (data.widened.take limit).zipIdx do
    say s!"  [{i}] {AttributeValue.plainStyle.render value}"
  if limit < data.length then
    say s!"  ... {data.length - limit} more"

/-- What is asked for, about a file that may have been opened. -/
def report (overflow : Overflow) (request : Request) (opened : Except Error Reader) :
    Report Unit := do
  let reader ← orFail (.unopened request.file) opened
  sayHeader request.file reader.header
  saySchema reader.schema reader.header.recordLength
  if request.steps then saySteps overflow reader
  if let some name := request.field then sayField reader name request.limit
  if request.verify then
    orFail .unverified (reader.verify overflow)
    say "\nverify: ok"

/-- What a run of the tool leaves behind. -/
structure Outcome where
  code : UInt8
  output : String
  complaint : String
  deriving DecidableEq, Repr

/-- How the tool is used. -/
def usage : String :=
  "Usage: trajectory-dump [--steps] [--field <FIELD>] [--limit <LIMIT>] [--verify] <FILE>"

/-- Whether an error is none that the tool reports: it ends the program where it comes up. -/
def isFatal : Error → Bool
  | .beyondCalendar | .overflow => true
  | _ => false

/-- Runs the tool on arguments, with a way to open files. A fatal error ends it with a code of its
own. -/
def run (overflow : Overflow) (arguments : List String) (openFile : Path → Except Error Reader) :
    Outcome :=
  match Request.ofArguments arguments with
  | .error .help => ⟨0, usage, ""⟩
  | .error .misuse => ⟨2, "", usage⟩
  | .ok request =>
    match ((report overflow request (openFile request.file)).run.run "") with
    | (.ok (), output) => ⟨0, output, ""⟩
    | (.error failure, output) =>
      if isFatal failure.cause then ⟨101, output, failure.cause.message⟩
      else ⟨1, output, failure.message⟩

end Inspection

end RaggedTrajectory
