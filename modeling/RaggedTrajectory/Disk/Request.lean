import RaggedTrajectory.Disk.Walk

/-!
# Requests to a disk

What can be asked of a disk. A request that is refused leaves the tree as it was; only a refused
write may have put a part of its bytes into the file.
-/

namespace RaggedTrajectory

/-- Bytes and the offset they go to. -/
structure Write where
  offset : UInt64
  bytes : Bytes
  deriving DecidableEq, Repr

/-- The bytes of a file after a write. -/
def Write.applyTo (write : Write) (content : Bytes) : Bytes :=
  content.overwrite write.offset.toNat write.bytes

namespace Disk

/-- What happens to the request at hand. -/
def nextOutage : Action Disk (Option Outage) := do
  let disk ← get
  set { disk with outages := disk.outages.drop 1 }
  return disk.outages.head?.join

/-- A result of the tree, as the result of a request. -/
def granted {α : Type} : Except Refusal α → Action Disk α
  | .ok a => pure a
  | .error refusal => throw (.refused refusal)

/-- Where a new file of a path goes, if nothing is there. -/
def findVacant (disk : Disk) (path : Path) : Except Refusal Location := do
  let (directory, last) ← disk.findLast path
  match last with
  | none => throw .alreadyExists
  | some name =>
    if endsInSlash path then throw .isADirectory
    else if maxNameLength < name.utf8ByteSize then throw .nameTooLong
    else if (disk.node? (directory ++ [name])).isSome then throw .alreadyExists
    else return directory ++ [name]

/-- Makes a new file, which must not be there in any form. -/
def create (path : Path) : Action Disk FileId := do
  let outage ← nextOutage
  let disk ← get
  match outage, disk.findVacant path with
  | some outage, _ => throw (.refused outage.refusal)
  | none, .error refusal => throw (.refused refusal)
  | none, .ok location =>
    set (disk.addFile location [])
    return disk.nextId

/-- Writes bytes into an open file. -/
def write (id : FileId) (write : Write) : Action Disk Unit := do
  let outage ← nextOutage
  let disk ← get
  match outage with
  | none => set (disk.setContent id (write.applyTo (disk.content id)))
  | some outage =>
    let part : Write := ⟨write.offset, write.bytes.take outage.written⟩
    set (disk.setContent id (part.applyTo (disk.content id)))
    throw (.refused outage.refusal)

/-- Waits until what was written is safe. -/
def sync : Action Disk Unit := do
  match ← nextOutage with
  | none => return
  | some outage => throw (.refused outage.refusal)

/-- The place of the file or link that a path names. -/
def findEntry (disk : Disk) (path : Path) : Except Refusal Location := do
  let (directory, last) ← disk.findLast path
  match last with
  | none => throw .isADirectory
  | some name =>
    if maxNameLength < name.utf8ByteSize then throw .nameTooLong
    else
      match disk.node? (directory ++ [name]) with
      | none => throw .notFound
      | some .directory => throw .isADirectory
      | some _ => if endsInSlash path then throw .notADirectory else return directory ++ [name]

/-- Removes a file or a link. -/
def remove (path : Path) : Action Disk Unit := do
  let disk ← get
  match disk.findEntry path with
  | .error refusal => throw (.refused refusal)
  | .ok location => set (disk.erase location)

/-- The number of the file that a path names, or the given refusal for a directory. -/
def openFile (disk : Disk) (path : Path) (forDirectory : Refusal) : Except Error FileId :=
  match disk.find true path with
  | .ok (.node _ (.file id)) => .ok id
  | .ok (.node _ .directory) => .error (.refused forDirectory)
  | .ok _ => .error (.refused .notFound)
  | .error refusal => .error (.refused refusal)

/-- Makes a file with given bytes, or gives these bytes to the file that is there. -/
def replaceFile (path : Path) (bytes : Bytes) : Action Disk Unit := do
  let disk ← get
  match disk.find true path with
  | .ok (.node _ (.file id)) => set (disk.setContent id bytes)
  | .ok (.node _ _) => throw (.refused .isADirectory)
  | .ok (.vacant directory name) => set (disk.addFile (directory ++ [name]) bytes)
  | .error refusal => throw (.refused refusal)

/-- Makes a link, where nothing may be yet. -/
def makeLink (target : String) (path : Path) : Action Disk Unit := do
  let disk ← get
  match disk.findVacant path with
  | .ok location => set (disk.put location (.link target))
  | .error refusal => throw (.refused refusal)

/-- Makes the directories on a way from a directory, where they are missing. -/
def makeSteps (disk : Disk) (here : Location) : List String → Except Refusal Disk
  | [] => .ok disk
  | name :: rest =>
    if name = "." then disk.makeSteps here rest
    else if name = ".." then disk.makeSteps here.dropLast rest
    else
      match disk.walk true maxLinks here [name] with
      | .ok (.node location .directory) => disk.makeSteps location rest
      | .ok (.node _ _) => .error (if rest = [] then .alreadyExists else .notADirectory)
      | .ok (.vacant directory last) =>
        if (disk.node? (here ++ [name])).isSome then .error .alreadyExists
        else (disk.put (directory ++ [last]) .directory).makeSteps (directory ++ [last]) rest
      | .error refusal => .error refusal

/-- Makes a directory and the ones above it. -/
def makeDirectories (path : Path) : Action Disk Unit := do
  let disk ← get
  granted (checkPath path)
  match disk.makeSteps (start disk.workingDirectory path.text) (steps path.text) with
  | .ok disk => set disk
  | .error refusal => throw (.refused refusal)

/-- What stands below the working directory, with the names on the way from there. -/
def listing (disk : Disk) : List (List String × Node) :=
  disk.nodes.filterMap fun (location, node) =>
    let depth := disk.workingDirectory.length
    if location.take depth = disk.workingDirectory ∧ depth < location.length then
      some (location.drop depth, node)
    else none

end Disk

end RaggedTrajectory
