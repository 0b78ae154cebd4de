import RaggedTrajectory.Config
import RaggedTrajectory.Disk.Request
import RaggedTrajectory.Text.Utf8

/-!
# Configuration files

A configuration that is kept in a file.
-/

namespace RaggedTrajectory.OutputConfig

/-- The configuration in the file that a path names. -/
def load (disk : Disk) (path : Path) : Except Error OutputConfig := do
  let id ← disk.openFile path .isADirectory
  match Utf8.decode? (disk.content id) with
  | none => throw (.refused .notText)
  | some text => parse text

end RaggedTrajectory.OutputConfig
