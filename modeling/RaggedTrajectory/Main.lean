import RaggedTrajectory.Inspection.Report

/-!
# The inspection tool

Reads the file that the arguments name and prints the report on it. It is built with overflow
checks.
-/

open RaggedTrajectory

/-- The refusal that a failure of the system means. -/
def refusalOf : IO.Error → Refusal
  | .noFileOrDirectory .. | .noSuchThing .. => .notFound
  | e => .other e.toString

/-- Opens a file of the system. -/
def openSystemFile (path : Path) : IO (Except Error Reader) := do
  try
    let content ← IO.FS.readBinFile path.text
    return Reader.ofBytes .stops content.data.toList
  catch e => return .error (.refused (refusalOf e))

/-- Runs the tool on the arguments of the command line. -/
def main (arguments : List String) : IO UInt32 := do
  let opened ← match Inspection.Request.ofArguments arguments with
    | .ok request => openSystemFile request.file
    | .error _ => pure (.error .serialization)
  let outcome := Inspection.run .stops arguments fun _ => opened
  IO.print outcome.output
  unless outcome.complaint.isEmpty do IO.eprintln outcome.complaint
  return outcome.code.toUInt32
