import RaggedTrajectory.Proofs.Lifecycle.Files

/-!
# What a writer depends on

The calls of a writer depend on its own file and on nothing else: on the bytes of the file, on the
header, the end and the next record in memory, and on what happens to the requests of the call.
Which number or path the file has makes no difference, nor do the other files of the disk, nor does
the population. So a writer acts as if it were alone, with its file as the only one on a disk.

* `Disk.RunsAlike`: requests that do the same to two files.
* `TrajectoryFile.append_moved`: an append to a file that stands somewhere else.
* `FileView.after`: a call, on a disk with no other file.
* `Writer.view_write`: a call, on any disk.
-/

namespace RaggedTrajectory

/-! ## Two files -/

namespace Disk

/-- Two files have the same bytes, and the same happens to the next requests. -/
structure Alike (disk : Disk) (id : FileId) (other : Disk) (own : FileId) : Prop where
  content : disk.content id = other.content own
  outages : disk.outages = other.outages

/-- Requests that fail alike or give the same result, and leave files alike that were alike. -/
def RunsAlike {α : Type} (id own : FileId) (first second : Action Disk α) : Prop :=
  ∀ disk other : Disk, disk.Alike id other own →
    ∃ result after later, first.on disk = (result, after) ∧ second.on other = (result, later) ∧
      after.Alike id later own

section RunsAlike

variable {id own : FileId}

theorem alike_afterRequest {disk other : Disk} (alike : disk.Alike id other own) :
    disk.afterRequest.Alike id other.afterRequest own :=
  ⟨alike.content, congrArg (List.drop 1) alike.outages⟩

theorem alike_afterWrite {disk other : Disk} (alike : disk.Alike id other own) (write : Write) :
    (disk.afterWrite id write).Alike id (other.afterWrite own write) own := by
  refine ⟨?_, congrArg (List.drop 1) alike.outages⟩
  rw [content_afterWrite_self, content_afterWrite_self, alike.content]

theorem runsAlike_write (write : Write) :
    RunsAlike id own (Disk.write id write) (Disk.write own write) := by
  intro disk other alike
  unfold Disk.write
  rw [Action.on_bind_ok (nextOutage_eq disk), Action.on_bind_ok (Action.on_get _),
    Action.on_bind_ok (nextOutage_eq other), Action.on_bind_ok (Action.on_get _), ← alike.outages]
  -- A request that is refused writes the same part to both.
  cases disk.outages.head?.join with
  | none => exact ⟨_, _, _, rfl, rfl, alike_afterWrite alike write⟩
  | some outage => exact ⟨_, _, _, rfl, rfl, alike_afterWrite alike ⟨write.offset, _⟩⟩

theorem runsAlike_sync : RunsAlike id own sync sync := by
  intro disk other alike
  unfold sync
  rw [Action.on_bind_ok (nextOutage_eq disk), Action.on_bind_ok (nextOutage_eq other),
    ← alike.outages]
  cases disk.outages.head?.join <;> exact ⟨_, _, _, rfl, rfl, alike_afterRequest alike⟩

theorem runsAlike_bind {α β : Type} {first second : Action Disk α} {next last : α → Action Disk β}
    (begins : RunsAlike id own first second) (goes : ∀ a, RunsAlike id own (next a) (last a)) :
    RunsAlike id own (first >>= next) (second >>= last) := by
  intro disk other alike
  obtain ⟨result, middle, between, ran, also, alike⟩ := begins disk other alike
  cases result with
  | ok a =>
    rw [Action.on_bind_ok ran, Action.on_bind_ok also]
    exact goes a middle between alike
  | error e => exact ⟨_, _, _, Action.on_bind_error ran, Action.on_bind_error also, alike⟩

end RunsAlike

end Disk

namespace TrajectoryFile

/-- An open file, as a file that has another number and another path. -/
def moved (file : TrajectoryFile) (id : FileId) (path : Path) : TrajectoryFile :=
  { file with id, path }

section Moved

variable (file : TrajectoryFile) (id : FileId) (path : Path) (record : StepRecord)

@[simp]
theorem id_moved : (file.moved id path).id = id := rfl

@[simp]
theorem check_moved : (file.moved id path).check record = file.check record := rfl

@[simp]
theorem chunkWrite_moved : (file.moved id path).chunkWrite record = file.chunkWrite record := rfl

@[simp]
theorem entryWrite_moved : (file.moved id path).entryWrite record = file.entryWrite record := rfl

@[simp]
theorem headerWrite_moved : (file.moved id path).headerWrite record = file.headerWrite record := rfl

end Moved

/-- An append does the same to a file that stands somewhere else. -/
theorem append_moved (file : TrajectoryFile) {disk other : Disk} {own : FileId} (path : Path)
    (alike : disk.Alike file.id other own) (record : StepRecord) :
    ∃ after, (file.moved own path).append record other =
        ((file.append record disk).1, (file.append record disk).2.1.moved own path, after) ∧
      (file.append record disk).2.2.Alike file.id after own := by
  -- Both files are at the same stage all the time: either both requests fail or none does.
  obtain ⟨wrote, middle, between, ran, also, stepped⟩ :=
    Disk.runsAlike_bind (Disk.runsAlike_write (file.chunkWrite record))
      (fun _ => Disk.runsAlike_write (file.entryWrite record)) disk other alike
  obtain ⟨counted, after, later, last, same, done⟩ :=
    Disk.runsAlike_bind (Disk.runsAlike_write (file.headerWrite record))
      (fun _ => Disk.runsAlike_sync) middle between stepped
  simp only [append, check_moved, chunkWrite_moved, entryWrite_moved, headerWrite_moved, id_moved,
    ran, also]
  -- The step is refused, or the chunk or its entry is, or the header is, or nothing.
  cases file.check record with
  | error e => exact ⟨other, rfl, alike⟩
  | ok =>
    cases wrote with
    | error e => exact ⟨between, rfl, stepped⟩
    | ok =>
      simp only [last, same]
      cases counted <;> exact ⟨later, rfl, done⟩

end TrajectoryFile

/-! ## A writer on its own -/

/-- A call to write a step, and what happens to the requests that it makes. Requests beyond the list
are granted, so the empty list stands for a disk that grants all of them. -/
structure Attempt extends WriteCall where
  outages : List (Option Outage)

namespace Attempt

/-- The same call for a population. -/
def withPopulation (attempt : Attempt) (population : Population) : Attempt :=
  { attempt with snapshot := { attempt.snapshot with population } }

/-- The disk that the call is made on. -/
def on (attempt : Attempt) (disk : Disk) : Disk := { disk with outages := attempt.outages }

end Attempt

/-- All that the calls of a writer depend on. -/
structure FileView where
  layout : RunLayout
  header : Header
  ending : UInt64
  policy : CompressionPolicy
  nextRecord : UInt64
  bytes : Bytes

/-- What the calls of a writer depend on. Whether the run has a twin is not part of it. -/
def Writer.view (layout : RunLayout) (writer : Writer) (disk : Disk) : FileView where
  layout := { layout with uncertain := false }
  header := writer.file.header
  ending := writer.file.ending
  policy := writer.policy
  nextRecord := writer.nextRecord
  bytes := disk.content writer.file.id

/-- Of the disk only the file of the writer matters. -/
theorem Writer.view_congr (layout : RunLayout) {writer : Writer} {disk after : Disk}
    (same : after.content writer.file.id = disk.content writer.file.id) :
    writer.view layout after = writer.view layout disk := by
  rw [view, view, same]

namespace FileView

/-- A writer of the only file. -/
def writer (view : FileView) : Writer where
  file := ⟨0, ⟨""⟩, view.header, view.ending⟩
  population := .base
  policy := view.policy
  nextRecord := view.nextRecord

/-- A disk with the only file. -/
def disk (view : FileView) (outages : List (Option Outage)) : Disk where
  nodes := []
  contents := [(0, view.bytes)]
  nextId := 1
  workingDirectory := []
  outages

/-- What is there after a call. -/
def after (view : FileView) (attempt : Attempt) : FileView :=
  let outcome :=
    view.writer.write view.layout attempt.step attempt.snapshot (view.disk attempt.outages)
  outcome.2.1.view view.layout outcome.2.2

/-- What is there after calls in their order. -/
def afterAll (view : FileView) (attempts : List Attempt) : FileView :=
  attempts.foldl after view

end FileView

/-- The population is not written to the file. -/
theorem Chunk.payload_withPopulation (snapshot : Snapshot) (population : Population)
    (fields : List Field) :
    payload { snapshot with population } fields = payload snapshot fields := by
  induction fields with
  | nil => rfl
  | cons field fields ih => rw [payload, payload, ih]; rfl

namespace Writer

theorem record_withPopulation (writer : Writer) (layout : RunLayout) (step : UInt32)
    (snapshot : Snapshot) (population : Population) :
    writer.record layout step { snapshot with population } =
      writer.record layout step snapshot := by
  unfold record Chunk.encode
  rw [Chunk.payload_withPopulation]

/-- A call does to a file among others what it does to the file alone. -/
theorem view_write (writer : Writer) (layout : RunLayout) (attempt : Attempt) {disk : Disk}
    (outages : disk.outages = attempt.outages) :
    (writer.write layout attempt.step attempt.snapshot disk).2.1.view layout
        (writer.write layout attempt.step attempt.snapshot disk).2.2 =
      (writer.view layout disk).after attempt := by
  have record : (writer.view layout disk).writer.record (writer.view layout disk).layout
      attempt.step attempt.snapshot = writer.record layout attempt.step attempt.snapshot := rfl
  have alike : disk.Alike writer.file.id ((writer.view layout disk).disk attempt.outages) 0 :=
    ⟨rfl, outages⟩
  rw [FileView.after]
  unfold write
  rw [record]
  cases writer.record layout attempt.step attempt.snapshot with
  | error e => rfl
  | ok record =>
    -- On its own disk the file has the number zero and no path to speak of.
    have moved : (writer.view layout disk).writer.file = writer.file.moved 0 ⟨""⟩ := rfl
    obtain ⟨after, appended, same⟩ := writer.file.append_moved ⟨""⟩ alike record
    have kept := (writer.file.writesOnly_append record disk).1
    dsimp only
    rw [moved, appended]
    generalize writer.file.append record disk = outcome at kept same
    obtain ⟨_ | entry, file, finish⟩ := outcome
    all_goals
      rw [view, view, kept, same.content]
      rfl

end Writer

namespace FileView

/-- What a call does to a file does not depend on the population. -/
theorem after_withPopulation (view : FileView) (attempt : Attempt) (population : Population) :
    view.after (attempt.withPopulation population) = view.after attempt := by
  have record := view.writer.record_withPopulation view.layout attempt.step attempt.snapshot
    population
  rw [after, after]
  unfold Writer.write
  rw [Attempt.withPopulation, record]

theorem afterAll_map_withPopulation (view : FileView) (attempts : List Attempt)
    (population : Population) :
    view.afterAll (attempts.map (·.withPopulation population)) = view.afterAll attempts := by
  rw [afterAll, List.foldl_map, afterAll]
  simp only [after_withPopulation]

/-- What there is of a file that was just made. -/
def fresh (layout : RunLayout) (schema : FileSchema) (format : FileFormat)
    (policy : CompressionPolicy) : FileView :=
  let image := TrajectoryFile.newImage schema format policy.method layout.stepCount
  { layout := { layout with uncertain := false }
    header := image.header
    ending := image.header.dataOffset
    policy
    nextRecord := 0
    bytes := image.bytes }

end FileView

end RaggedTrajectory
