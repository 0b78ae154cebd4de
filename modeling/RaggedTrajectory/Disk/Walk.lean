import RaggedTrajectory.Disk.Basic
import RaggedTrajectory.Path

/-!
# Finding what a path names

A path is walked name by name from the root or the working directory. Links on the way are
followed, at most forty of them. A slash at the end asks for a directory, as a dot at the end does.
-/

namespace RaggedTrajectory.Disk

/-- How many links are followed on one way. -/
def maxLinks : Nat := 40

/-- The bytes that a name may have. -/
def maxNameLength : Nat := 255

/-- The bytes that a path may have. -/
def maxPathLength : Nat := 4095

/-- What a path names. -/
inductive Found where
  | node (location : Location) (node : Node)
  /-- Nothing, but a node of that name could be made in the directory. -/
  | vacant (directory : Location) (name : String)
  deriving DecidableEq, Repr

/-- The parts of a text that name something or stand for the directory itself. A slash at the end
counts as a dot after it. -/
def steps (text : String) : List String :=
  let chars := text.toList
  let names := (Path.segments chars).filter (· ≠ [])
  let names := if chars.getLast? = some '/' then names ++ [['.']] else names
  names.map String.ofList

/-- Where a walk starts. -/
def start (here : Location) (text : String) : Location :=
  if text.toList.head? = some '/' then [] else here

/-- Walks from a directory along the names of a path. The last link of all is followed on
request. -/
def walk (disk : Disk) (follow : Bool) (links : Nat) (here : Location) :
    List String → Except Refusal Found
  | [] => .ok (.node here .directory)
  | name :: rest =>
    if name = "." then walk disk follow links here rest
    else if name = ".." then walk disk follow links here.dropLast rest
    else if maxNameLength < name.utf8ByteSize then .error .nameTooLong
    else
      match disk.node? (here ++ [name]) with
      | none => if rest = [] then .ok (.vacant here name) else .error .notFound
      | some .directory => walk disk follow links (here ++ [name]) rest
      | some (.file id) =>
        if rest = [] then .ok (.node (here ++ [name]) (.file id)) else .error .notADirectory
      | some (.link target) =>
        if rest = [] ∧ ¬follow then .ok (.node (here ++ [name]) (.link target))
        else
          match links with
          | 0 => .error .linkLoop
          | links + 1 => walk disk follow links (start here target) (steps target ++ rest)
  termination_by names => (links, names.length)

/-- Refuses texts that cannot be paths. -/
def checkPath (path : Path) : Except Refusal Unit :=
  if path.text.contains '\x00' then .error .zeroByte
  else if path.text = "" then .error .notFound
  else if maxPathLength < path.text.utf8ByteSize then .error .nameTooLong
  else .ok ()

theorem checkPath_eq_ok_iff {path : Path} :
    checkPath path = .ok () ↔ path.text.contains '\x00' = false ∧ path.text ≠ "" ∧
      path.text.utf8ByteSize ≤ maxPathLength := by
  rw [checkPath]
  split
  · simp [*]
  · split
    · simp [*]
    · split <;> simp_all

/-- What a path names. -/
def find (disk : Disk) (follow : Bool) (path : Path) : Except Refusal Found := do
  checkPath path
  disk.walk follow maxLinks (start disk.workingDirectory path.text) (steps path.text)

/-- What a path names, if anything is there; links are followed. -/
def lookup? (disk : Disk) (path : Path) : Option Node :=
  match disk.find true path with
  | .ok (.node _ node) => some node
  | _ => none

/-- Whether a path names anything. -/
def holds (disk : Disk) (path : Path) : Bool := (disk.lookup? path).isSome

/-- Whether a path names a directory. -/
def isDirectory (disk : Disk) (path : Path) : Bool := disk.lookup? path = some .directory

/-- The directory that the last name of a path is looked up in, and that name. It is no name if it
stands for a directory. -/
def findLast (disk : Disk) (path : Path) : Except Refusal (Location × Option String) := do
  checkPath path
  let names := (steps path.text).reverse
  let names := if path.text.toList.getLast? = some '/' then names.drop 1 else names
  let parent ← disk.walk true maxLinks (start disk.workingDirectory path.text)
    (names.drop 1).reverse
  match parent, names.head? with
  | .node here .directory, last => return (here, last.filter fun name => name ≠ "." ∧ name ≠ "..")
  | .node _ _, _ => throw .notADirectory
  | .vacant _ _, _ => throw .notFound

/-- Whether a path ends in a slash. -/
def endsInSlash (path : Path) : Bool := path.text.toList.getLast? = some '/'

end RaggedTrajectory.Disk
