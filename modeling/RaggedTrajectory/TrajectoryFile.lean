import RaggedTrajectory.Disk.Request
import RaggedTrajectory.FileSchema
import RaggedTrajectory.StepTable

/-!
# Trajectory files

A file that is open for appending. A step is appended by three writes in a fixed order: its chunk
behind all others, its entry in the table, and the header with the new counters. A file whose last
append was cut short still has every earlier step.
-/

namespace RaggedTrajectory

/-- A step to append. -/
structure StepRecord where
  step : UInt32
  /-- Seconds since the origin of time. -/
  time : Binary64
  /-- The number of particles. -/
  count : UInt64
  recordStart : UInt64
  chunk : Bytes

/-- A file that is open for appending. -/
structure TrajectoryFile where
  id : FileId
  path : Path
  header : Header
  /-- Where the next chunk goes. -/
  ending : UInt64
  deriving Repr

namespace TrajectoryFile

/-- What a new file holds: the header, the schema block and a table without written steps. -/
def prelude (header : Header) (block : Bytes) : Bytes :=
  header.encode ++ block ++ StepTable.encodeUnwritten header.stepCount.toNat

/-- Makes a file and syncs it. Nothing may be at the path yet. -/
def create (path : Path) (schema : FileSchema) (format : FileFormat) (codec : Codec)
    (stepCount : UInt32) : Action Disk TrajectoryFile := do
  let block := schema.encode
  let header := Header.create format codec stepCount (UInt64.ofNat block.length)
  let id ← Disk.create path
  Disk.write id ⟨0, prelude header block⟩
  Disk.sync
  return ⟨id, path, header, header.dataOffset⟩

/-- The largest number of particles of a step. -/
def maxCount : Nat := 2 ^ 31 - 1

/-- The table entry of a step whose chunk goes to the end of the file. -/
def entryOf (file : TrajectoryFile) (record : StepRecord) : StepEntry where
  time := record.time
  particleCount := record.count.toUInt32.toInt32
  written := true
  recordStart := record.recordStart
  chunkOffset := file.ending
  chunkLength := UInt64.ofNat record.chunk.length

/-- The header after a step was appended. -/
def headerAfter (file : TrajectoryFile) (record : StepRecord) : Header :=
  { file.header with
    recordLength := record.recordStart + record.count
    stepsWritten := max file.header.stepsWritten (record.step + 1) }

/-- The write of the chunk. -/
def chunkWrite (file : TrajectoryFile) (record : StepRecord) : Write :=
  ⟨file.ending, record.chunk⟩

/-- The write of the table entry. -/
def entryWrite (file : TrajectoryFile) (record : StepRecord) : Write :=
  ⟨file.header.entryOffset record.step, (file.entryOf record).encode⟩

/-- The write of the header. -/
def headerWrite (file : TrajectoryFile) (record : StepRecord) : Write :=
  ⟨0, (file.headerAfter record).encode⟩

/-- The writes that append a step, in their order. -/
def appendWrites (file : TrajectoryFile) (record : StepRecord) : List Write :=
  [file.chunkWrite record, file.entryWrite record, file.headerWrite record]

/-- The steps that can be appended. -/
def check (file : TrajectoryFile) (record : StepRecord) : Except Error Unit :=
  if file.header.stepCount ≤ record.step then
    .error (.stepOutOfRange record.step.toNat file.header.stepCount.toNat)
  else if maxCount < record.count.toNat then
    .error (.schema (.tooManyParticles record.count.toNat))
  else .ok ()

/-- Appends a step and syncs the file. The counters are taken over before the header is written, and
the end moves when all is safe. -/
def append (file : TrajectoryFile) (record : StepRecord) (disk : Disk) :
    Except Error StepEntry × TrajectoryFile × Disk :=
  let writeStep : Action Disk Unit := do
    Disk.write file.id (file.chunkWrite record)
    Disk.write file.id (file.entryWrite record)
  let writeHeader : Action Disk Unit := do
    Disk.write file.id (file.headerWrite record)
    Disk.sync
  match file.check record with
  | .error e => (.error e, file, disk)
  | .ok () =>
    match writeStep.on disk with
    | (.error e, disk) => (.error e, file, disk)
    | (.ok (), disk) =>
      let counted := { file with header := file.headerAfter record }
      match writeHeader.on disk with
      | (.error e, disk) => (.error e, counted, disk)
      | (.ok (), disk) =>
        let ending := file.ending + UInt64.ofNat record.chunk.length
        (.ok (file.entryOf record), { counted with ending }, disk)

end TrajectoryFile

end RaggedTrajectory
