import RaggedTrajectory.Lifecycle
import RaggedTrajectory.Proofs.Chunk.Requirements
import RaggedTrajectory.Proofs.File.Run

/-!
# Which calls a run accepts

A call to write a step meets its requirements one after the other: there is a run, the run has a
file for the population, the step is on the time axis, there are not too many particles, and the
arrays are what the fields ask for. On a disk that grants every request a call succeeds if all of
them are met. If not, the first one that is not met is the error, and run and disk are as before the
call.

This holds of every lifecycle that operations lead to, whatever the disks refused on the way,
because an open run always has one writer for each of its destinations, and the files of the writers
have the time axis of the run.

* `Lifecycle.isSound_of_reachable`: the invariant of lifecycles.
* `Writer.write_of_requirements`: a call to one writer.
* `Lifecycle.write_eq_ok_iff`: a call to a run.
-/

namespace RaggedTrajectory

open Requirement (firstFault)

/-! ## Calls to a writer -/

/-- Whatever becomes of an append, the file keeps its time axis. -/
theorem TrajectoryFile.stepCount_append (file : TrajectoryFile) (record : StepRecord)
    (disk : Disk) : (file.append record disk).2.1.header.stepCount = file.header.stepCount := by
  unfold append
  split
  · rfl
  · dsimp only
    split
    · rfl
    · split <;> rfl

namespace Writer

/-- What a writer asks of a call: a step on the time axis, not too many particles, and what the
fields ask for. -/
def requirements (layout : RunLayout) (step : UInt32) (snapshot : Snapshot) : List Requirement :=
  ⟨step < layout.stepCount, .stepOutOfRange step.toNat layout.stepCount.toNat⟩ ::
    ⟨snapshot.count ≤ TrajectoryFile.maxCount, .schema (.tooManyParticles snapshot.count)⟩ ::
      Chunk.requirements layout.manifest snapshot

/-- A writer has something to append unless the call misses a requirement, and then the first one it
misses is the error. -/
theorem firstFault_requirements (writer : Writer) (layout : RunLayout) (step : UInt32)
    (snapshot : Snapshot) :
    firstFault (requirements layout step snapshot) =
      Error.of? (writer.record layout step snapshot) := by
  have chunk := Chunk.firstFault_requirements layout.manifest step writer.nextRecord snapshot
    writer.policy
  unfold requirements record
  -- The two checks of the writer come before those of the fields.
  by_cases inside : step < layout.stepCount
  · by_cases small : snapshot.count ≤ TrajectoryFile.maxCount
    · simp only [Requirement.firstFault_cons, inside, small, decide_true, if_true, chunk,
        UInt32.not_le.2 inside, Nat.not_lt.2 small, if_false]
      cases Chunk.encode layout.manifest step writer.nextRecord snapshot writer.policy <;> rfl
    · simp [inside, UInt32.not_le.2 inside, small, Nat.not_le.1 small, Error.of?]
  · simp [inside, UInt32.not_lt.1 inside, Error.of?]

/-- What a writer appends is not refused by its file, if the file has the time axis of the run. -/
theorem check_eq_ok {writer : Writer} {layout : RunLayout} {step : UInt32} {snapshot : Snapshot}
    {record : StepRecord} (axis : writer.file.header.stepCount = layout.stepCount)
    (made : writer.record layout step snapshot = .ok record) :
    writer.file.check record = .ok () ∧ record.count = UInt64.ofNat snapshot.count := by
  -- The file makes the same two checks as the writer did, on the words of the record.
  obtain ⟨inside, small, own⟩ := record_eq_ok made
  have start : writer.nextRecord = UInt64.ofNat writer.nextRecord.toNat :=
    UInt64.ofNat_toNat.symm
  obtain ⟨sameStep, -, count, -, -⟩ := WriteCall.record_eq_ok (own _ start)
  have word : (UInt64.ofNat snapshot.count).toNat = snapshot.count :=
    UInt64.toNat_ofNat_of_lt' (Nat.lt_of_le_of_lt small (by decide))
  refine ⟨?_, count⟩
  rw [TrajectoryFile.check, axis, sameStep, count, word, if_neg (UInt32.not_le.2 inside),
    if_neg (Nat.not_lt.2 small)]

/-- On a disk that grants every request a call succeeds if it meets what the writer asks for; its
records are the next ones. If not, the first requirement it misses is the error, and writer and disk
are as before. -/
theorem write_of_requirements {disk : Disk} (reliable : disk.IsReliable) {writer : Writer}
    {layout : RunLayout} (axis : writer.file.header.stepCount = layout.stepCount) (step : UInt32)
    (snapshot : Snapshot) :
    (∃ e, firstFault (requirements layout step snapshot) = some e ∧
      writer.write layout step snapshot disk = (.error e, writer, disk)) ∨
    firstFault (requirements layout step snapshot) = none ∧
      (writer.write layout step snapshot disk).1 =
        .ok (writer.nextRecord, writer.nextRecord + UInt64.ofNat snapshot.count) := by
  rw [writer.firstFault_requirements layout step snapshot]
  cases made : writer.record layout step snapshot with
  | error e => exact .inl ⟨e, rfl, by rw [write, made]⟩
  | ok record =>
    obtain ⟨allowed, count⟩ := check_eq_ok axis made
    rcases TrajectoryFile.append_on reliable writer.file record with
      ⟨e, refused, -⟩ | ⟨-, after, appended, -⟩
    · -- The file cannot refuse what the writer has let through.
      rw [allowed] at refused
      cases refused
    · refine .inr ⟨rfl, ?_⟩
      rw [write, made, ← count]
      simp only [appended]

/-! ## What a call leaves as it is -/

/-- What no call to a writer changes: its population, and the length of the time axis. -/
def place (writer : Writer) : Population × UInt32 :=
  (writer.population, writer.file.header.stepCount)

/-- Whatever becomes of a call, the writer keeps its place. -/
theorem place_write (writer : Writer) (layout : RunLayout) (step : UInt32) (snapshot : Snapshot)
    (disk : Disk) : (writer.write layout step snapshot disk).2.1.place = writer.place := by
  unfold write
  split
  · rfl
  · next record made =>
      have axis := writer.file.stepCount_append record disk
      split <;> next appended =>
        rw [appended] at axis
        exact congrArg (Prod.mk writer.population) axis

/-- A new writer is for its population and has the time axis of the run. -/
theorem place_of_create {path : Path} {population : Population} {layout : RunLayout}
    {schema : FileSchema} {format : FileFormat} {policy : CompressionPolicy} {disk after : Disk}
    {writer : Writer}
    (made : (create path population layout schema format policy).on disk = (.ok writer, after)) :
    writer.place = (population, layout.stepCount) := by
  unfold create at made
  obtain ⟨file, opened, first, rest⟩ := Action.exists_of_on_bind_ok made
  cases rest
  unfold TrajectoryFile.create at first
  -- The file is what comes out of the last of its requests; only its header matters here.
  obtain ⟨id, _, -, first⟩ := Action.exists_of_on_bind_ok first
  obtain ⟨_, _, -, first⟩ := Action.exists_of_on_bind_ok first
  obtain ⟨_, _, -, first⟩ := Action.exists_of_on_bind_ok first
  cases first
  rfl

end Writer

/-! ## Runs -/

namespace OpenRun

/-- Every destination of a run has its writer, and the files of the writers have the time axis of
the run. -/
def IsSound (run : OpenRun) : Prop :=
  run.writers.map Writer.place =
    run.destinations.entries.map fun entry => (entry.1, run.layout.stepCount)

/-- A snapshot whose population has no writer is refused. -/
theorem writeWith_eq_error {layout : RunLayout} {step : UInt32} {snapshot : Snapshot} {disk : Disk}
    {writers : List Writer}
    (absent : ∀ writer ∈ writers, writer.population ≠ snapshot.population) :
    writeWith layout step snapshot disk writers =
      (.error .noUncertainDestination, writers, disk) := by
  induction writers with
  | nil => rfl
  | cons writer writers ih =>
    obtain ⟨first, others⟩ := List.forall_mem_cons.1 absent
    rw [writeWith, if_neg first, ih others]

/-- A snapshot goes to the first writer of its population. -/
theorem writeWith_append (layout : RunLayout) (step : UInt32) {snapshot : Snapshot} (disk : Disk)
    {front : List Writer} {writer : Writer} (back : List Writer)
    (others : ∀ other ∈ front, other.population ≠ snapshot.population)
    (own : writer.population = snapshot.population) :
    writeWith layout step snapshot disk (front ++ writer :: back) =
      ((writer.write layout step snapshot disk).1,
        front ++ (writer.write layout step snapshot disk).2.1 :: back,
        (writer.write layout step snapshot disk).2.2) := by
  induction front with
  | nil => rw [List.nil_append, writeWith, if_pos own, List.nil_append]
  | cons other front ih =>
    obtain ⟨first, rest⟩ := List.forall_mem_cons.1 others
    rw [List.cons_append, writeWith, if_neg first, ih rest, List.cons_append]

/-- Whatever becomes of a call, every writer keeps its place. -/
theorem map_place_writeWith (layout : RunLayout) (step : UInt32) (snapshot : Snapshot) (disk : Disk)
    (writers : List Writer) :
    (writeWith layout step snapshot disk writers).2.1.map Writer.place =
      writers.map Writer.place := by
  induction writers with
  | nil => rfl
  | cons writer writers ih =>
    rw [writeWith]
    split
    · simp only [List.map_cons, Writer.place_write]
    · simp only [List.map_cons, ih]

/-- What a run asks of a call: a destination for the population, and what its writer asks for. -/
def requirements (run : OpenRun) (step : UInt32) (snapshot : Snapshot) : List Requirement :=
  ⟨(run.destinations.pathFor? snapshot.population).isSome, .noUncertainDestination⟩ ::
    Writer.requirements run.layout step snapshot

/-- A call that meets all of them. -/
structure Accepts (run : OpenRun) (step : UInt32) (snapshot : Snapshot) : Prop where
  destination : (run.destinations.pathFor? snapshot.population).isSome
  onAxis : step < run.layout.stepCount
  countable : snapshot.count ≤ TrajectoryFile.maxCount
  fits : ∀ field ∈ run.layout.manifest.fields, ∀ array,
    snapshot.get? field.binding.arrayName = some array → field.Fits snapshot.count array

theorem accepts_iff (run : OpenRun) (step : UInt32) (snapshot : Snapshot) :
    run.Accepts step snapshot ↔ firstFault (run.requirements step snapshot) = none := by
  have arrays := Chunk.firstFault_requirements_eq_none_iff run.layout.manifest snapshot
  rw [Requirement.firstFault_eq_none_iff] at arrays
  rw [Requirement.firstFault_eq_none_iff, requirements, Writer.requirements, List.forall_mem_cons,
    List.forall_mem_cons, List.forall_mem_cons, arrays, decide_eq_true_iff, decide_eq_true_iff]
  exact ⟨fun ⟨destination, onAxis, countable, fits⟩ => ⟨destination, onAxis, countable, fits⟩,
    fun ⟨destination, onAxis, countable, fits⟩ => ⟨destination, onAxis, countable, fits⟩⟩

section Sound

variable {run : OpenRun} (sound : run.IsSound)

include sound

theorem stepCount_of_mem {writer : Writer} (mem : writer ∈ run.writers) :
    writer.file.header.stepCount = run.layout.stepCount := by
  have place : writer.place ∈ run.writers.map Writer.place := List.mem_map_of_mem mem
  rw [sound] at place
  obtain ⟨entry, -, same⟩ := List.mem_map.1 place
  exact (congrArg Prod.snd same).symm

/-- A population has a writer if it has a destination. -/
theorem exists_writer_iff (population : Population) :
    (∃ writer ∈ run.writers, writer.population = population) ↔
      (run.destinations.pathFor? population).isSome := by
  -- Writers and destinations are for the same populations, in the same order.
  have populations : run.writers.map Writer.population = run.destinations.entries.map Prod.fst := by
    have firsts := congrArg (List.map Prod.fst) sound
    rw [List.map_map, List.map_map] at firsts
    exact firsts
  rw [← List.mem_map, populations]
  rcases run.destinations with ⟨primary, _ | twin⟩ <;> cases population <;>
    simp [Destinations.entries, Destinations.pathFor?]

/-- On a disk that grants every request, a call to a run succeeds if it meets what the run asks for;
its records are the next ones of the writer of the population. If not, the first requirement it
misses is the error, and writers and disk are as before. -/
theorem writeWith_of_requirements {disk : Disk} (reliable : disk.IsReliable) (step : UInt32)
    (snapshot : Snapshot) :
    (∃ e, firstFault (run.requirements step snapshot) = some e ∧
      writeWith run.layout step snapshot disk run.writers = (.error e, run.writers, disk)) ∨
    firstFault (run.requirements step snapshot) = none ∧
      ∃ writer, (run.writers.find? fun writer => writer.population = snapshot.population) =
          some writer ∧
        (writeWith run.layout step snapshot disk run.writers).1 =
          .ok (writer.nextRecord, writer.nextRecord + UInt64.ofNat snapshot.count) := by
  have destination := exists_writer_iff sound snapshot.population
  rw [requirements, Requirement.firstFault_cons]
  cases found : run.writers.find? fun writer => writer.population = snapshot.population with
  | none =>
    have absent : ∀ writer ∈ run.writers, writer.population ≠ snapshot.population := by
      simpa using found
    have none : ¬(run.destinations.pathFor? snapshot.population).isSome = true := fun some => by
      obtain ⟨writer, mem, own⟩ := destination.2 some
      exact absent writer mem own
    rw [if_neg none]
    exact .inl ⟨_, rfl, writeWith_eq_error absent⟩
  | some writer =>
    -- The writers before the one that is found stay as they are, and so do those behind it.
    obtain ⟨own, front, back, split, others⟩ := List.find?_eq_some_iff_append.1 found
    replace own : writer.population = snapshot.population := by simpa using own
    replace others : ∀ other ∈ front, other.population ≠ snapshot.population := by
      simpa using others
    have mem : writer ∈ run.writers := split ▸ List.mem_append_cons_self
    have axis := stepCount_of_mem sound mem
    rw [if_pos (destination.1 ⟨writer, mem, own⟩), split,
      writeWith_append run.layout step disk back others own]
    rcases Writer.write_of_requirements reliable axis step snapshot with
      ⟨e, fault, refused⟩ | ⟨met, wrote⟩
    · exact .inl ⟨e, fault, by rw [refused]⟩
    · exact .inr ⟨met, writer, rfl, wrote⟩

end Sound

end OpenRun

/-! ## Lifecycles -/

namespace Lifecycle

/-- The lifecycles that operations lead to, one after the other, each on whatever disk. -/
inductive Reachable : Lifecycle → Prop
  | idle : Reachable idle
  | begin {lifecycle : Lifecycle} (destinations : Destinations) (layout : RunLayout)
      (globals : GlobalAttributes) (created : Timestamp) (format : FileFormat)
      (policy : CompressionPolicy) (disk : Disk) : Reachable lifecycle →
      Reachable (lifecycle.begin destinations layout globals created format policy disk).2.1
  | write {lifecycle : Lifecycle} (step : UInt32) (snapshot : Snapshot) (disk : Disk) :
      Reachable lifecycle → Reachable (lifecycle.write step snapshot disk).2.1
  | rewind {lifecycle : Lifecycle} (disk : Disk) :
      Reachable lifecycle → Reachable (lifecycle.rewind disk).2.1

/-- The run is sound, if there is one. -/
def IsSound (lifecycle : Lifecycle) : Prop := ∀ run ∈ lifecycle.run, run.IsSound

theorem isSound_idle : idle.IsSound := fun run mem => by cases mem

theorem createWriters_cons_on (layout : RunLayout) (schema : FileSchema) (format : FileFormat)
    (policy : CompressionPolicy) (made : List Writer) (population : Population) (path : Path)
    (entries : List (Population × Path)) (disk : Disk) :
    (createWriters layout schema format policy made ((population, path) :: entries)).on disk =
      match (Writer.create path population layout schema format policy).on disk with
      | (.ok writer, disk) =>
        (createWriters layout schema format policy (made ++ [writer]) entries).on disk
      | (.error e, disk) =>
        (.error e, ((Disk.removeFiles (made.map fun writer => writer.file.path)).on disk).2) :=
  rfl

/-- The writers that are made for destinations, behind those that were made before. -/
theorem map_place_createWriters {layout : RunLayout} {schema : FileSchema} {format : FileFormat}
    {policy : CompressionPolicy} {made writers : List Writer} {entries : List (Population × Path)}
    {disk after : Disk}
    (ran : (createWriters layout schema format policy made entries).on disk =
      (.ok writers, after)) :
    writers.map Writer.place =
      made.map Writer.place ++ entries.map fun entry => (entry.1, layout.stepCount) := by
  induction entries generalizing made disk with
  | nil =>
    cases ran
    rw [List.map_nil, List.append_nil]
  | cons entry entries ih =>
    obtain ⟨population, path⟩ := entry
    rw [createWriters_cons_on] at ran
    split at ran
    · next created =>
        -- The new writer goes behind those that were made before it.
        rw [ih ran, List.map_append, List.map_singleton, Writer.place_of_create created,
          List.append_assoc]
        rfl
    · cases ran

theorem isSound_begin {lifecycle : Lifecycle} (sound : lifecycle.IsSound)
    (destinations : Destinations) (layout : RunLayout) (globals : GlobalAttributes)
    (created : Timestamp) (format : FileFormat) (policy : CompressionPolicy) (disk : Disk) :
    (lifecycle.begin destinations layout globals created format policy disk).2.1.IsSound := by
  unfold begin
  -- There is a run already, or a destination is refused, or a file cannot be made: the lifecycle is
  -- as before. Otherwise the run is the one that was made.
  split
  · exact sound
  · split
    · exact sound
    · dsimp only
      split
      · exact sound
      · next ran =>
          rintro run (opened : some _ = some run)
          cases opened
          exact map_place_createWriters ran

theorem isSound_write {lifecycle : Lifecycle} (sound : lifecycle.IsSound) (step : UInt32)
    (snapshot : Snapshot) (disk : Disk) : (lifecycle.write step snapshot disk).2.1.IsSound := by
  unfold write
  split
  · exact sound
  · next run opened =>
      rintro written (kept : some _ = some written)
      cases kept
      have places := OpenRun.map_place_writeWith run.layout step snapshot disk run.writers
      exact places.trans (sound run opened)

theorem isSound_rewind {lifecycle : Lifecycle} (sound : lifecycle.IsSound) (disk : Disk) :
    (lifecycle.rewind disk).2.1.IsSound := by
  unfold rewind
  split
  · exact sound
  · exact isSound_idle

/-- The invariant of lifecycles. -/
theorem isSound_of_reachable {lifecycle : Lifecycle} (reachable : lifecycle.Reachable) :
    lifecycle.IsSound := by
  induction reachable with
  | idle => exact isSound_idle
  | begin destinations layout globals created format policy disk _ sound =>
    exact isSound_begin sound destinations layout globals created format policy disk
  | write step snapshot disk _ sound => exact isSound_write sound step snapshot disk
  | rewind disk _ sound => exact isSound_rewind sound disk

/-- What is asked of a call: an open run, and what the run asks for. -/
def requirements (lifecycle : Lifecycle) (step : UInt32) (snapshot : Snapshot) :
    List Requirement :=
  match lifecycle.run with
  | none => [⟨false, .writeTargetClosed⟩]
  | some run => run.requirements step snapshot

theorem firstFault_requirements_eq_none_iff (lifecycle : Lifecycle) (step : UInt32)
    (snapshot : Snapshot) :
    firstFault (lifecycle.requirements step snapshot) = none ↔
      ∃ run ∈ lifecycle.run, run.Accepts step snapshot := by
  unfold requirements
  cases lifecycle.run with
  | none => simp
  | some run => simp [OpenRun.accepts_iff]

/-- On a disk that grants every request a call succeeds if it meets what is asked of it. If not, the
first requirement it misses is the error, and lifecycle and disk are as before. -/
theorem write_of_requirements {lifecycle : Lifecycle} (sound : lifecycle.IsSound) {disk : Disk}
    (reliable : disk.IsReliable) (step : UInt32) (snapshot : Snapshot) :
    (∃ e, firstFault (lifecycle.requirements step snapshot) = some e ∧
      lifecycle.write step snapshot disk = (.error e, lifecycle, disk)) ∨
    firstFault (lifecycle.requirements step snapshot) = none ∧
      ∃ start, lifecycle.recordLength? snapshot.population = some start ∧
        (lifecycle.write step snapshot disk).1 =
          .ok (start, start + UInt64.ofNat snapshot.count) := by
  obtain ⟨_ | run⟩ := lifecycle
  · exact .inl ⟨_, rfl, rfl⟩
  · rcases OpenRun.writeWith_of_requirements (sound run rfl) reliable step snapshot with
      ⟨e, fault, refused⟩ | ⟨met, writer, found, wrote⟩
    · refine .inl ⟨e, fault, ?_⟩
      simp only [write, refused]
    · refine .inr ⟨met, writer.nextRecord, ?_, wrote⟩
      simp only [recordLength?, Option.bind_eq_bind, Option.bind_some, found]
      rfl

/-- A call succeeds exactly if there is a run that accepts it, and then its records are the next
ones of its population. If not, the error is that of the first requirement it misses, lifecycle and
disk are as before, and so is the outcome of every later call. -/
theorem write_eq_ok_iff {lifecycle : Lifecycle} (reachable : lifecycle.Reachable) {disk : Disk}
    (reliable : disk.IsReliable) (step : UInt32) (snapshot : Snapshot) :
    ((∃ range, (lifecycle.write step snapshot disk).1 = .ok range) ↔
      ∃ run ∈ lifecycle.run, run.Accepts step snapshot) ∧
    (∀ range, (lifecycle.write step snapshot disk).1 = .ok range →
      lifecycle.recordLength? snapshot.population = some range.1 ∧
        range.2 = range.1 + UInt64.ofNat snapshot.count) ∧
    ∀ e, (lifecycle.write step snapshot disk).1 = .error e →
      firstFault (lifecycle.requirements step snapshot) = some e ∧
      (lifecycle.write step snapshot disk).2 = (lifecycle, disk) ∧
      ∀ later next, (lifecycle.write step snapshot disk).2.1.write later next
          (lifecycle.write step snapshot disk).2.2 = lifecycle.write later next disk := by
  rw [← firstFault_requirements_eq_none_iff]
  rcases write_of_requirements (isSound_of_reachable reachable) reliable step snapshot with
    ⟨e, fault, refused⟩ | ⟨met, start, length, wrote⟩
  · -- The call was refused, so there is no range, and a later call sees the same state.
    rw [refused, fault]
    refine ⟨⟨fun ⟨range, wrote⟩ => (by cases wrote), fun met => (by cases met)⟩,
      fun range wrote => (by cases wrote), ?_⟩
    rintro other same
    cases same
    exact ⟨rfl, rfl, fun later next => rfl⟩
  · -- The call succeeded, so there is no error to account for.
    rw [wrote]
    refine ⟨⟨fun _ => met, fun _ => ⟨_, rfl⟩⟩, ?_, fun e refused => (by cases refused)⟩
    rintro range same
    cases same
    exact ⟨length, rfl⟩

end Lifecycle

/-! ## The small run, begun -/

namespace SmallRun

def destinations : Destinations := .derive path false

def lifecycle : Lifecycle := ⟨some ⟨layout, destinations, [writer]⟩⟩

theorem validateTarget_path : disk.validateTarget path = .ok () := by
  have free : disk.lookup? path = none := by
    have steps : Disk.steps path.text = ["run"] := by decide +kernel
    have origin : Disk.start disk.workingDirectory path.text = [] := by decide +kernel
    have short : ¬Disk.maxNameLength < "run".utf8ByteSize := by decide +kernel
    have vacant : disk.node? ["run"] = none := rfl
    simp [Disk.lookup?, Disk.find, checkPath_path, steps, origin, Disk.walk, short, vacant, bind,
      Except.bind]
  have parent : disk.lookup? path.directory = some .directory := by
    have here : path.directory = ⟨"."⟩ := by decide +kernel
    have allowed : Disk.checkPath ⟨"."⟩ = .ok () :=
      Disk.checkPath_eq_ok_iff.2 ⟨by simp, by decide +kernel, by decide +kernel⟩
    have steps : Disk.steps "." = ["."] := by decide +kernel
    simp [here, Disk.lookup?, Disk.find, allowed, steps, Disk.walk, bind, Except.bind]
  refine Disk.validateTarget_ok_iff.2 ⟨?_, by decide +kernel, ?_⟩
  · rw [Disk.holds, free]
    rfl
  · rw [Disk.isDirectory, parent]
    rfl

theorem begin_eq :
    Lifecycle.idle.begin destinations layout {} time .classic (.ofCodec .stored) disk =
      (.ok (), lifecycle, start) := by
  have targets : Lifecycle.validateTargets disk destinations = .ok () := by
    simp [Lifecycle.validateTargets, destinations, Destinations.derive, Destinations.paths,
      validateTarget_path, bind, Except.bind, pure, Except.pure]
  have writers : (Lifecycle.createWriters layout (layout.fileSchema {} time) .classic
      (.ofCodec .stored) [] destinations.entries).on disk = (.ok [writer], start) := by
    have made := create_on
    rw [schema] at made
    rw [destinations, Destinations.derive, Destinations.entries,
      Lifecycle.createWriters_cons_on, made]
    rfl
  rw [Lifecycle.begin, if_neg (by decide), targets]
  simp only [writers, lifecycle]

theorem reachable_lifecycle : lifecycle.Reachable := by
  have begun := Lifecycle.Reachable.begin destinations layout {} time .classic (.ofCodec .stored)
    disk .idle
  rw [begin_eq] at begun
  exact begun

end SmallRun

namespace Lifecycle

/-- Two calls to the small run: there is no step seven, and step one gets the first two records. -/
theorem write_eq_ok_iff_smallRun :
    let refused := SmallRun.lifecycle.write 7 SmallRun.pair SmallRun.start
    let accepted := SmallRun.lifecycle.write 1 SmallRun.pair SmallRun.start
    (refused.1 = .error (.stepOutOfRange 7 3) ∧ refused.2 = (SmallRun.lifecycle, SmallRun.start)) ∧
      accepted.1 = .ok (0, 2) ∧
      SmallRun.lifecycle.recordLength? .base = some 0 ∧
      ∃ run ∈ SmallRun.lifecycle.run, run.Accepts 1 SmallRun.pair := by
  have reliable : SmallRun.start.IsReliable :=
    (Writer.holds_create SmallRun.reliable SmallRun.create_on).1
  have refused := write_eq_ok_iff SmallRun.reachable_lifecycle reliable 7 SmallRun.pair
  have accepted := write_eq_ok_iff SmallRun.reachable_lifecycle reliable 1 SmallRun.pair
  have outside : (SmallRun.lifecycle.write 7 SmallRun.pair SmallRun.start).1 =
      .error (.stepOutOfRange 7 3) := rfl
  have inside : (SmallRun.lifecycle.write 1 SmallRun.pair SmallRun.start).1 = .ok (0, 2) := rfl
  exact ⟨⟨outside, (refused.2.2 _ outside).2.1⟩, inside, (accepted.2.1 _ inside).1,
    accepted.1.1 ⟨_, inside⟩⟩

end Lifecycle

end RaggedTrajectory
