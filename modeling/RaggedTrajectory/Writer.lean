import RaggedTrajectory.Chunk
import RaggedTrajectory.Layout
import RaggedTrajectory.TrajectoryFile

/-!
# Writers

A writer fills one file of a run. It keeps the number of records written so far: a step starts where
the write before it ended, however the number of particles changes from step to step.
-/

namespace RaggedTrajectory

/-- A file of a run that is being written. -/
structure Writer where
  file : TrajectoryFile
  population : Population
  policy : CompressionPolicy
  /-- The record after the last one written. -/
  nextRecord : UInt64

namespace Writer

/-- Makes the file of a population. -/
def create (path : Path) (population : Population) (layout : RunLayout) (schema : FileSchema)
    (format : FileFormat) (policy : CompressionPolicy) : Action Disk Writer := do
  let file ← TrajectoryFile.create path schema format policy.method layout.stepCount
  return ⟨file, population, policy, 0⟩

/-- What is appended for a snapshot: the number of the step, of the particles and the arrays are
checked in this order. -/
def record (writer : Writer) (layout : RunLayout) (step : UInt32) (snapshot : Snapshot) :
    Except Error StepRecord :=
  if layout.stepCount ≤ step then
    .error (.stepOutOfRange step.toNat layout.stepCount.toNat)
  else if TrajectoryFile.maxCount < snapshot.count then
    .error (.schema (.tooManyParticles snapshot.count))
  else do
    let chunk ← Chunk.encode layout.manifest step writer.nextRecord snapshot writer.policy
    return {
      step
      time := layout.elapsedSeconds snapshot.time
      count := UInt64.ofNat snapshot.count
      recordStart := writer.nextRecord
      chunk }

/-- Writes a step: the first of its records and the one after its last. -/
def write (writer : Writer) (layout : RunLayout) (step : UInt32) (snapshot : Snapshot)
    (disk : Disk) : Except Error (UInt64 × UInt64) × Writer × Disk :=
  match writer.record layout step snapshot with
  | .error e => (.error e, writer, disk)
  | .ok record =>
    match writer.file.append record disk with
    | (.error e, file, disk) => (.error e, { writer with file }, disk)
    | (.ok _, file, disk) =>
      let nextRecord := writer.nextRecord + record.count
      (.ok (writer.nextRecord, nextRecord), { writer with file, nextRecord }, disk)

end Writer

end RaggedTrajectory
