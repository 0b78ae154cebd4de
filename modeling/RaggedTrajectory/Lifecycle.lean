import RaggedTrajectory.Destinations
import RaggedTrajectory.Target
import RaggedTrajectory.Writer

/-!
# The life of a run

A run is begun, written and rewound. All targets are checked before the first file is made, and a
run that cannot be begun removes the files it made. To rewind a run is to remove its files; after
that there is no run, whatever came of the removal.
-/

namespace RaggedTrajectory

/-- A run that has been begun. -/
structure OpenRun where
  layout : RunLayout
  destinations : Destinations
  writers : List Writer

/-- At most one run. -/
structure Lifecycle where
  run : Option OpenRun

/-- What was written where. -/
structure Receipt where
  step : UInt32
  paths : List Path
  time : Timestamp
  deriving DecidableEq, Repr

namespace OpenRun

/-- Writes a snapshot with the writer of its population. -/
def writeWith (layout : RunLayout) (step : UInt32) (snapshot : Snapshot) (disk : Disk) :
    List Writer → Except Error (UInt64 × UInt64) × List Writer × Disk
  | [] => (.error .noUncertainDestination, [], disk)
  | writer :: others =>
    if writer.population = snapshot.population then
      match writer.write layout step snapshot disk with
      | (result, writer, disk) => (result, writer :: others, disk)
    else
      match writeWith layout step snapshot disk others with
      | (result, others, disk) => (result, writer :: others, disk)

end OpenRun

namespace Lifecycle

/-- No run. -/
def idle : Lifecycle := ⟨none⟩

/-- Whether there is a run. -/
def isOpen (lifecycle : Lifecycle) : Bool := lifecycle.run.isSome

/-- Checks every destination before any is made. -/
def validateTargets (disk : Disk) (destinations : Destinations) : Except Error Unit :=
  destinations.paths.forM disk.validateTarget

/-- Makes the files of a run one after another. If one cannot be made, the ones before it are
removed, whatever comes of that. -/
def createWriters (layout : RunLayout) (schema : FileSchema) (format : FileFormat)
    (policy : CompressionPolicy) (made : List Writer) :
    List (Population × Path) → Action Disk (List Writer)
  | [] => return made
  | (population, path) :: rest => fun disk =>
    match (Writer.create path population layout schema format policy).on disk with
    | (.ok writer, disk) =>
      (createWriters layout schema format policy (made ++ [writer]) rest).on disk
    | (.error e, disk) =>
      (.error e, ((Disk.removeFiles (made.map fun writer => writer.file.path)).on disk).2)

/-- Begins a run. -/
def begin (lifecycle : Lifecycle) (destinations : Destinations) (layout : RunLayout)
    (globals : GlobalAttributes) (created : Timestamp) (format : FileFormat)
    (policy : CompressionPolicy) (disk : Disk) : Except Error Unit × Lifecycle × Disk :=
  if lifecycle.isOpen then (.error .alreadyRunning, lifecycle, disk)
  else
    match validateTargets disk destinations with
    | .error e => (.error e, lifecycle, disk)
    | .ok () =>
      let schema := layout.fileSchema globals created
      match (createWriters layout schema format policy [] destinations.entries).on disk with
      | (.error e, disk) => (.error e, lifecycle, disk)
      | (.ok writers, disk) => (.ok (), ⟨some ⟨layout, destinations, writers⟩⟩, disk)

/-- Writes the snapshot of a population to its file: the records it got. -/
def write (lifecycle : Lifecycle) (step : UInt32) (snapshot : Snapshot) (disk : Disk) :
    Except Error (UInt64 × UInt64) × Lifecycle × Disk :=
  match lifecycle.run with
  | none => (.error .writeTargetClosed, lifecycle, disk)
  | some run =>
    match OpenRun.writeWith run.layout step snapshot disk run.writers with
    | (result, writers, disk) => (result, ⟨some { run with writers }⟩, disk)

/-- A receipt that names every file of the run. -/
def receipt (lifecycle : Lifecycle) (step : UInt32) (time : Timestamp) : Except Error Receipt :=
  match lifecycle.run with
  | none => .error .writeTargetClosed
  | some run => .ok ⟨step, run.destinations.paths, time⟩

/-- The number of records written for a population. -/
def recordLength? (lifecycle : Lifecycle) (population : Population) : Option UInt64 := do
  let run ← lifecycle.run
  let writer ← run.writers.find? fun writer => writer.population = population
  return writer.nextRecord

/-- Removes the files of the run. Without a run there is nothing to do. -/
def rewind (lifecycle : Lifecycle) (disk : Disk) : Except Error Unit × Lifecycle × Disk :=
  match lifecycle.run with
  | none => (.ok (), lifecycle, disk)
  | some run =>
    match (Disk.removeFiles run.destinations.paths).on disk with
    | (result, disk) => (result, idle, disk)

end Lifecycle

end RaggedTrajectory
