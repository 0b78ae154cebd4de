import RaggedTrajectory.Error
import RaggedTrajectory.Bytes
import RaggedTrajectory.Keyed

/-!
# Disks

A disk is a tree of directories, files and links. A file keeps its bytes under a number of its own,
so that whoever has it open can go on writing when its name is gone or names another file. A disk
can be out of order: `outages` says what happens to the next requests to make, write or sync a
file.

* `node?_put_self`, `node?_put_ne`: a new node changes nothing else.
* `node?_erase_self`, `node?_erase_ne`: nor does removing one.
-/

namespace RaggedTrajectory

/-- A place in the tree: the names on the way from the root. -/
abbrev Location := List String

/-- The number of a file. -/
abbrev FileId := Nat

/-- What stands at a place. -/
inductive Node where
  | file (id : FileId)
  | directory
  | link (target : String)
  deriving DecidableEq, Repr

/-- A request that is refused, after some of its bytes were written. -/
structure Outage where
  refusal : Refusal
  written : Nat
  deriving DecidableEq, Repr

/-- A tree of directories, files and links. -/
structure Disk where
  /-- What stands where, below the root. -/
  nodes : Keyed Location Node
  /-- The bytes of each file. -/
  contents : Keyed FileId Bytes
  /-- The number of the next new file. -/
  nextId : FileId
  /-- Where paths start that do not start at the root. -/
  workingDirectory : Location
  /-- What happens to the next requests to make, write or sync a file. Requests beyond succeed. -/
  outages : List (Option Outage)
  deriving Repr

namespace Disk

/-- A disk with nothing but directories. -/
def ofDirectories (directories : List Location) (workingDirectory : Location) : Disk where
  nodes := directories.map fun location => (location, .directory)
  contents := []
  nextId := 0
  workingDirectory
  outages := []

/-- What stands at a place. The root is a directory. -/
def node? (disk : Disk) (location : Location) : Option Node :=
  if location = [] then some .directory else disk.nodes.get? location

/-- The disk with a node at a place, in place of what was there. -/
def put (disk : Disk) (location : Location) (node : Node) : Disk :=
  { disk with nodes := disk.nodes.insert location node }

/-- The disk with nothing at a place. -/
def erase (disk : Disk) (location : Location) : Disk :=
  { disk with nodes := Keyed.erase disk.nodes location }

/-- The bytes of a file. -/
def content (disk : Disk) (id : FileId) : Bytes := (disk.contents.get? id).getD []

/-- The disk with other bytes in a file. -/
def setContent (disk : Disk) (id : FileId) (bytes : Bytes) : Disk :=
  { disk with contents := disk.contents.insert id bytes }

/-- The disk with a new file of given bytes at a place. -/
def addFile (disk : Disk) (location : Location) (bytes : Bytes) : Disk :=
  { (disk.put location (.file disk.nextId)).setContent disk.nextId bytes with
    nextId := disk.nextId + 1 }

theorem node?_put_self (disk : Disk) {location : Location} (node : Node) (h : location ≠ []) :
    (disk.put location node).node? location = some node := by
  simp [node?, put, h, Keyed.get?_insert_self]

theorem node?_put_ne (disk : Disk) {location other : Location} (node : Node)
    (h : other ≠ location) : (disk.put location node).node? other = disk.node? other := by
  simp [node?, put, Keyed.get?_insert_ne _ _ h]

theorem node?_erase_self (disk : Disk) {location : Location} (h : location ≠ []) :
    (disk.erase location).node? location = none := by
  simp [node?, erase, h, Keyed.get?_erase_self]

theorem node?_erase_ne (disk : Disk) {location other : Location} (h : other ≠ location) :
    (disk.erase location).node? other = disk.node? other := by
  simp [node?, erase, Keyed.get?_erase_ne _ h]

theorem content_setContent_self (disk : Disk) (id : FileId) (bytes : Bytes) :
    (disk.setContent id bytes).content id = bytes := by
  simp [content, setContent, Keyed.get?_insert_self]

theorem content_setContent_ne (disk : Disk) {id other : FileId} (bytes : Bytes)
    (h : other ≠ id) : (disk.setContent id bytes).content other = disk.content other := by
  simp [content, setContent, Keyed.get?_insert_ne _ _ h]

end Disk

end RaggedTrajectory
