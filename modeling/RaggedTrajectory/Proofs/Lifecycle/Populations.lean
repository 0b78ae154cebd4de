import Mathlib.Data.List.Nodup
import RaggedTrajectory.Proofs.Disk.Entries
import RaggedTrajectory.Proofs.Lifecycle.Views

/-!
# Two populations, two files

The populations of a run do not get in each other's way. Each of them has a writer and a file of its
own, so a call for one of them is a step of its file and no step of the other one. What a file holds
in the end is what the calls of its population make of a new file, in whatever order they were mixed
with calls of the other one, and whatever became of those.

* `Lifecycle.view?_attempt_self`: what a call does to the file of its population.
* `Lifecycle.view?_attempt_ne`: it does nothing to the file of another population.
* `Lifecycle.view?_afterAttempts`: so a file depends on the calls of its own population.
* `Lifecycle.view?_of_begin`: all files of a run are the same in the beginning.
* `Lifecycle.held_of_attempts`: what the files of a run hold.
-/

namespace RaggedTrajectory

/-! ## Calls to several writers -/

namespace Writer

/-- What no call changes of a writer: its population and its file. -/
def mark (writer : Writer) : Population × FileId := (writer.population, writer.file.id)

theorem population_write (writer : Writer) (layout : RunLayout) (step : UInt32)
    (snapshot : Snapshot) (disk : Disk) :
    (writer.write layout step snapshot disk).2.1.population = writer.population :=
  congrArg Prod.fst (writer.place_write layout step snapshot disk)

theorem mark_write (writer : Writer) (layout : RunLayout) (step : UInt32) (snapshot : Snapshot)
    (disk : Disk) : (writer.write layout step snapshot disk).2.1.mark = writer.mark :=
  Prod.ext (writer.population_write layout step snapshot disk)
    (writer.writesOnly_write layout step snapshot disk).1

end Writer

namespace OpenRun

section WriteWith

variable (layout : RunLayout) (step : UInt32) (snapshot : Snapshot) (disk : Disk)
  (writers : List Writer)

theorem map_mark_writeWith :
    (writeWith layout step snapshot disk writers).2.1.map Writer.mark =
      writers.map Writer.mark := by
  induction writers with
  | nil => rfl
  | cons writer writers ih =>
    rw [writeWith]
    split
    · simp only [List.map_cons, Writer.mark_write]
    · simp only [List.map_cons, ih]

/-- The writers of other populations are as before. -/
theorem find?_writeWith_ne {population : Population} (other : population ≠ snapshot.population) :
    ((writeWith layout step snapshot disk writers).2.1.find? fun writer =>
        writer.population = population) =
      writers.find? fun writer => writer.population = population := by
  induction writers with
  | nil => rfl
  | cons writer writers ih =>
    rw [writeWith]
    split
    · next own =>
        -- Neither the writer that is used nor what becomes of it is looked for.
        have before : writer.population ≠ population := fun same => other (same.symm.trans own)
        have after : (writer.write layout step snapshot disk).2.1.population ≠ population := by
          rw [writer.population_write]
          exact before
        rw [List.find?_cons_of_neg (by simpa using after),
          List.find?_cons_of_neg (by simpa using before)]
    · simp only [List.find?_cons, ih]

/-- So are all files but those of the writers of the population. -/
theorem content_writeWith (id : FileId)
    (other : ∀ writer ∈ writers, writer.population = snapshot.population → writer.file.id ≠ id) :
    (writeWith layout step snapshot disk writers).2.2.content id = disk.content id := by
  induction writers with
  | nil => rfl
  | cons writer writers ih =>
    obtain ⟨first, rest⟩ := List.forall_mem_cons.1 other
    rw [writeWith]
    split
    · next own =>
        exact (writer.writesOnly_write layout step snapshot disk).2.content id (first own).symm
    · exact ih rest

/-- Nothing else changes than the bytes of one file. -/
theorem exists_writesOnly_writeWith :
    ∃ id, disk.WritesOnly id (writeWith layout step snapshot disk writers).2.2 := by
  induction writers with
  | nil => exact ⟨0, .refl disk 0⟩
  | cons writer writers ih =>
    rw [writeWith]
    split
    · exact ⟨writer.file.id, (writer.writesOnly_write layout step snapshot disk).2⟩
    · exact ih

theorem isPart_writeWith : disk.IsPart (writeWith layout step snapshot disk writers).2.2 := by
  obtain ⟨id, wrote⟩ := exists_writesOnly_writeWith layout step snapshot disk writers
  exact Disk.isPart_of_nodes wrote.nodes wrote.workingDirectory

/-- The first writer of the population makes the call. -/
theorem find?_writeWith_self {population : Population} (own : snapshot.population = population) :
    ((writeWith layout step snapshot disk writers).2.1.find? fun writer =>
        writer.population = population).map
        (fun writer => writer.view layout (writeWith layout step snapshot disk writers).2.2) =
      (writers.find? fun writer => writer.population = population).map fun writer =>
        (writer.view layout disk).after ⟨⟨step, snapshot⟩, disk.outages⟩ := by
  subst own
  induction writers with
  | nil => rfl
  | cons writer writers ih =>
    rw [writeWith]
    split
    · next own =>
        have kept := (writer.population_write layout step snapshot disk).trans own
        rw [List.find?_cons_of_pos (by simpa using kept),
          List.find?_cons_of_pos (by simpa using own)]
        exact congrArg some
          (writer.view_write layout ⟨⟨step, snapshot⟩, disk.outages⟩ rfl)
    · next other =>
        rw [List.find?_cons_of_neg (by simpa using other),
          List.find?_cons_of_neg (by simpa using other)]
        exact ih

end WriteWith

/-- Every writer has a file of its own, and this is what the destination of its population names. -/
structure IsApart (run : OpenRun) (disk : Disk) : Prop where
  distinct : ((run.writers.map Writer.mark).map Prod.snd).Nodup
  named : ∀ mark ∈ run.writers.map Writer.mark, ∃ path,
    run.destinations.pathFor? mark.1 = some path ∧ disk.Names path mark.2

/-- Writers of different populations have different files. -/
theorem file_ne_of_isApart {run : OpenRun} {disk : Disk} (apart : run.IsApart disk)
    {writer other : Writer} (first : writer ∈ run.writers) (second : other ∈ run.writers)
    (different : writer.population ≠ other.population) : writer.file.id ≠ other.file.id := by
  have distinct := apart.distinct
  rw [List.map_map] at distinct
  intro same
  obtain rfl := List.inj_on_of_nodup_map distinct first second same
  exact different rfl

section IsApart

variable {run : OpenRun} {disk : Disk} (apart : run.IsApart disk)

include apart

/-- Where every path names what it named, the files are apart as before. -/
theorem isApart_of_part {after : Disk} (part : disk.IsPart after) : run.IsApart after where
  distinct := apart.distinct
  named mark mem := by
    obtain ⟨path, own, named⟩ := apart.named mark mem
    exact ⟨path, own, Disk.names_of_part part named⟩

/-- A call changes neither the files of the writers nor what a path names. -/
theorem isApart_writeWith (step : UInt32) (snapshot : Snapshot) :
    { run with writers := (writeWith run.layout step snapshot disk run.writers).2.1 }.IsApart
      (writeWith run.layout step snapshot disk run.writers).2.2 := by
  have marks := map_mark_writeWith run.layout step snapshot disk run.writers
  have part := isPart_writeWith run.layout step snapshot disk run.writers
  obtain ⟨distinct, named⟩ := isApart_of_part apart part
  rw [← marks] at distinct named
  exact ⟨distinct, named⟩

end IsApart

end OpenRun

/-! ## Calls one after the other -/

namespace Lifecycle

/-- A run and its disk after a call, whatever the result is. -/
def attempt (state : Lifecycle × Disk) (call : Attempt) : Lifecycle × Disk :=
  (state.1.write call.step call.snapshot (call.on state.2)).2

/-- A run and its disk after calls in their order. -/
def afterAttempts (state : Lifecycle × Disk) (attempts : List Attempt) : Lifecycle × Disk :=
  attempts.foldl attempt state

/-- What there is of the file of a population, for its writer. -/
def view? (state : Lifecycle × Disk) (population : Population) : Option FileView :=
  state.1.run.bind fun run =>
    (run.writers.find? fun writer => writer.population = population).map fun writer =>
      writer.view run.layout state.2

/-- What the destination of a population holds: the bytes of the file, and the number of records
that the run counts. -/
def held? (state : Lifecycle × Disk) (population : Population) : Option (Bytes × UInt64) := do
  let run ← state.1.run
  let path ← run.destinations.pathFor? population
  let bytes ← state.2.bytesAt? path
  let length ← state.1.recordLength? population
  return (bytes, length)

/-- The files of the run are apart, if there is a run. -/
def IsApart (state : Lifecycle × Disk) : Prop := ∀ run ∈ state.1.run, run.IsApart state.2

/-- A call does to the file of its population what it would do to the file alone. -/
theorem view?_attempt_self (state : Lifecycle × Disk) {call : Attempt} {population : Population}
    (own : call.snapshot.population = population) :
    view? (attempt state call) population = (view? state population).map (·.after call) := by
  obtain ⟨⟨_ | run⟩, disk⟩ := state
  · rfl
  · refine (OpenRun.find?_writeWith_self run.layout call.step call.snapshot (call.on disk)
      run.writers own).trans ?_
    simp only [view?, Option.bind_some, Option.map_map]
    rfl

section IsApart

variable {state : Lifecycle × Disk} (apart : IsApart state)

include apart

/-- It does nothing to the file of another population. -/
theorem view?_attempt_ne {call : Attempt} {population : Population}
    (other : population ≠ call.snapshot.population) :
    view? (attempt state call) population = view? state population := by
  obtain ⟨⟨_ | run⟩, disk⟩ := state
  · rfl
  · have same := OpenRun.find?_writeWith_ne run.layout call.step call.snapshot (call.on disk)
      run.writers other
    simp only [view?, attempt, write, Option.bind_some, same]
    cases found : run.writers.find? fun writer => writer.population = population with
    | none => rfl
    | some writer =>
      have mem := List.mem_of_find?_eq_some found
      have own : writer.population = population := by simpa using List.find?_some found
      -- The file of the writer is not among those that can change.
      have kept := OpenRun.content_writeWith run.layout call.step call.snapshot (call.on disk)
        run.writers writer.file.id fun used inside population =>
          OpenRun.file_ne_of_isApart (apart run rfl) inside mem
            (population.trans_ne (own ▸ other.symm))
      exact congrArg some (Writer.view_congr run.layout kept)

theorem isApart_attempt (call : Attempt) : IsApart (attempt state call) := by
  obtain ⟨⟨_ | run⟩, disk⟩ := state
  · exact fun run mem => by cases mem
  · rintro after (opened : some _ = some after)
    cases opened
    -- What happens to the requests of the call makes no difference to the paths.
    have asked : disk.IsPart (call.on disk) := Disk.isPart_of_nodes rfl rfl
    exact OpenRun.isApart_writeWith (OpenRun.isApart_of_part (apart run rfl) asked) call.step
      call.snapshot

/-- A file depends on the calls of its own population, in their order, and on no other call. -/
theorem view?_afterAttempts (population : Population) (attempts : List Attempt) :
    view? (afterAttempts state attempts) population =
      (view? state population).map
        (·.afterAll (attempts.filter (·.snapshot.population = population))) := by
  induction attempts generalizing state with
  | nil => exact Option.map_id'.symm
  | cons call attempts ih =>
    rw [afterAttempts, List.foldl_cons, ← afterAttempts, ih (isApart_attempt apart call)]
    -- The first call is a step of the file, or it is none of its calls.
    by_cases own : call.snapshot.population = population
    · rw [view?_attempt_self state own, Option.map_map,
        List.filter_cons_of_pos (by simpa using own)]
      rfl
    · rw [view?_attempt_ne apart fun same => own same.symm,
        List.filter_cons_of_neg (by simpa using own)]

theorem isApart_afterAttempts (attempts : List Attempt) :
    IsApart (afterAttempts state attempts) := by
  induction attempts generalizing state with
  | nil => exact apart
  | cons call attempts ih => exact ih (isApart_attempt apart call)

/-- What a destination holds is what its writer knows of it. -/
theorem held?_eq_map_view? (population : Population) :
    held? state population =
      (view? state population).map fun view => (view.bytes, view.nextRecord) := by
  obtain ⟨⟨_ | run⟩, disk⟩ := state
  · rfl
  · simp only [held?, view?, recordLength?, Option.bind_eq_bind, Option.bind_some]
    cases found : run.writers.find? fun writer => writer.population = population with
    | none => simp
    | some writer =>
      have mem := List.mem_of_find?_eq_some found
      have own : writer.population = population := by simpa using List.find?_some found
      -- The destination of the population names the file of its writer.
      obtain ⟨path, destination, named⟩ := (apart run rfl).named writer.mark
        (List.mem_map_of_mem mem)
      rw [Writer.mark, own] at destination
      rw [destination]
      simp [Disk.bytesAt?_of_names named, Writer.view, Writer.mark]

end IsApart

end Lifecycle

/-! ## New files -/

theorem Destinations.mem_entries_iff {destinations : Destinations} {population : Population}
    {path : Path} :
    (population, path) ∈ destinations.entries ↔ destinations.pathFor? population = some path := by
  rcases destinations with ⟨primary, _ | twin⟩ <;> cases population <;>
    simp [entries, pathFor?, eq_comm]

/-- A disk has some files more, with the next numbers. -/
structure Disk.Adds (disk : Disk) (count : Nat) (after : Disk) : Prop where
  part : disk.IsPart after
  nextId : after.nextId = disk.nextId + count
  content : ∀ id < disk.nextId, after.content id = disk.content id

theorem Disk.Adds.trans {disk middle after : Disk} {first second : Nat}
    (one : disk.Adds first middle) (other : middle.Adds second after) :
    disk.Adds (first + second) after where
  part := one.part.trans other.part
  nextId := by rw [other.nextId, one.nextId, Nat.add_assoc]
  content id below :=
    (other.content id (one.nextId ▸ Nat.lt_add_right first below)).trans (one.content id below)

/-- A file that is made is one more, and its path names it. -/
theorem TrajectoryFile.adds_diskAfterCreate {disk : Disk} {path : Path} {location : Location}
    (vacant : disk.afterRequest.findVacant path = .ok location) (image : FileImage) :
    disk.Adds 1 (diskAfterCreate disk location image) ∧
      (diskAfterCreate disk location image).Names path disk.nextId := by
  have free := Disk.node?_of_findVacant vacant
  have root : location ≠ [] := by
    rintro rfl
    cases free
  -- The requests that follow leave the tree as it is.
  have asked : disk.IsPart disk.afterRequest := Disk.isPart_of_nodes rfl rfl
  have wrote : (disk.afterRequest.addFile location []).IsPart
      (diskAfterCreate disk location image) := Disk.isPart_of_nodes rfl rfl
  have added := (Disk.isPart_addFile free []).trans wrote
  have there : (diskAfterCreate disk location image).node? location = some (.file disk.nextId) :=
    wrote.nodes location _ (disk.afterRequest.node?_put_self (.file disk.nextId) root)
  refine ⟨⟨asked.trans added, rfl, fun id below => ?_⟩, location, ?_, there⟩
  · have different : id ≠ disk.nextId := Nat.ne_of_lt below
    rw [diskAfterCreate, Disk.content_afterRequest, Disk.content_afterWrite_ne _ _ different]
    exact Disk.content_setContent_ne _ [] different
  · exact Disk.findEntry_of_findVacant (Disk.keepsWays_of_isPart added) rfl vacant there

namespace Writer

/-- A writer of a new file. -/
structure IsNew (writer : Writer) (path : Path) (view : FileView) (disk : Disk) : Prop where
  named : disk.Names path writer.file.id
  view : writer.view view.layout disk = view
  number : writer.file.id < disk.nextId

/-- It stays one when other files are made. -/
theorem isNew_of_adds {writer : Writer} {path : Path} {view : FileView} {disk after : Disk}
    {count : Nat} (new : writer.IsNew path view disk) (adds : disk.Adds count after) :
    writer.IsNew path view after where
  named := Disk.names_of_part adds.part new.named
  view := (view_congr view.layout (adds.content _ new.number)).trans new.view
  number := by
    rw [adds.nextId]
    exact Nat.lt_add_right count new.number

theorem isNew_of_create {path : Path} {population : Population} {layout : RunLayout}
    {schema : FileSchema} {format : FileFormat} {policy : CompressionPolicy} {disk after : Disk}
    {writer : Writer}
    (made : (create path population layout schema format policy).on disk = (.ok writer, after)) :
    writer.mark = (population, disk.nextId) ∧ disk.Adds 1 after ∧
      writer.IsNew path (.fresh layout schema format policy) after := by
  unfold create at made
  obtain ⟨file, opened, first, rest⟩ := Action.exists_of_on_bind_ok made
  obtain ⟨location, vacant, rfl, rfl⟩ := TrajectoryFile.create_eq_ok first
  cases rest
  obtain ⟨adds, named⟩ := TrajectoryFile.adds_diskAfterCreate vacant
    (TrajectoryFile.newImage schema format policy.method layout.stepCount)
  refine ⟨rfl, adds, named, ?_, Nat.lt_succ_self _⟩
  rw [view, TrajectoryFile.content_diskAfterCreate]
  rfl

end Writer

namespace Lifecycle

/-- The writers of a run are made with the next numbers, for the destinations in their order, and
all of them have the same view of their files. -/
theorem createWriters_eq_ok {layout : RunLayout} {schema : FileSchema} {format : FileFormat}
    {policy : CompressionPolicy} {made writers : List Writer} {entries : List (Population × Path)}
    {disk after : Disk}
    (ran : (createWriters layout schema format policy made entries).on disk =
      (.ok writers, after)) :
    disk.Adds entries.length after ∧ ∃ new, writers = made ++ new ∧
      new.map Writer.mark = (entries.map Prod.fst).zipIdx disk.nextId ∧
      ∀ writer ∈ new, ∃ path, (writer.population, path) ∈ entries ∧
        writer.IsNew path (.fresh layout schema format policy) after := by
  induction entries generalizing made disk with
  | nil =>
    cases ran
    exact ⟨⟨.refl _, rfl, fun _ _ => rfl⟩, [], (List.append_nil _).symm, rfl,
      fun writer mem => by cases mem⟩
  | cons entry entries ih =>
    obtain ⟨population, path⟩ := entry
    rw [createWriters_cons_on] at ran
    split at ran
    · next writer middle created =>
        obtain ⟨mark, one, own⟩ := Writer.isNew_of_create created
        obtain ⟨adds, new, rfl, marks, others⟩ := ih ran
        -- The first writer stays new while the others are made.
        refine ⟨?_, writer :: new, ?_, ?_, ?_⟩
        · rw [List.length_cons, Nat.add_comm]
          exact one.trans adds
        · rw [List.append_assoc, List.singleton_append]
        · rw [List.map_cons, mark, marks, one.nextId]
          rfl
        · rintro other mem
          rcases List.mem_cons.1 mem with rfl | later
          · have population : other.population = population := congrArg Prod.fst mark
            exact ⟨path, population ▸ List.mem_cons_self, Writer.isNew_of_adds own adds⟩
          · obtain ⟨place, inside, new⟩ := others other later
            exact ⟨place, List.mem_cons_of_mem _ inside, new⟩
    · cases ran

/-- The run that was begun has one of these writers for every destination. -/
theorem begin_eq_ok {lifecycle run : Lifecycle} {destinations : Destinations} {layout : RunLayout}
    {globals : GlobalAttributes} {created : Timestamp} {format : FileFormat}
    {policy : CompressionPolicy} {disk after : Disk}
    (begun : lifecycle.begin destinations layout globals created format policy disk =
      (.ok (), run, after)) :
    ∃ writers, run = ⟨some ⟨layout, destinations, writers⟩⟩ ∧
      (createWriters layout (layout.fileSchema globals created) format policy []
        destinations.entries).on disk = (.ok writers, after) := by
  unfold begin at begun
  split at begun
  · cases begun
  · split at begun
    · cases begun
    · dsimp only at begun
      split at begun
      · cases begun
      · next writers last made =>
          cases begun
          exact ⟨writers, rfl, made⟩

section Begun

variable {lifecycle run : Lifecycle} {destinations : Destinations} {layout : RunLayout}
  {globals : GlobalAttributes} {created : Timestamp} {format : FileFormat}
  {policy : CompressionPolicy} {disk after : Disk}
  (begun : lifecycle.begin destinations layout globals created format policy disk =
    (.ok (), run, after))

include begun

theorem isApart_of_begin : IsApart (run, after) := by
  obtain ⟨writers, rfl, ran⟩ := begin_eq_ok begun
  obtain ⟨-, writers, rfl, marks, all⟩ := createWriters_eq_ok ran
  rintro opened (same : some _ = some opened)
  cases same
  refine ⟨?_, fun mark mem => ?_⟩
  · -- The files have numbers in a row.
    rw [marks, List.zipIdx_map_snd]
    exact List.nodup_range' 1
  · obtain ⟨writer, inside, rfl⟩ := List.mem_map.1 mem
    obtain ⟨path, entry, isNew⟩ := all writer inside
    exact ⟨path, Destinations.mem_entries_iff.1 entry, isNew.named⟩

/-- All files of a run are the same in the beginning. -/
theorem view?_of_begin {population : Population} {path : Path}
    (destination : destinations.pathFor? population = some path) :
    view? (run, after) population =
      some (.fresh layout (layout.fileSchema globals created) format policy) := by
  obtain ⟨writers, rfl, ran⟩ := begin_eq_ok begun
  obtain ⟨-, writers, rfl, marks, all⟩ := createWriters_eq_ok ran
  have populations := congrArg (List.map Prod.fst) marks
  rw [List.map_map, List.zipIdx_map_fst] at populations
  cases found : writers.find? fun writer => writer.population = population with
  | none =>
    -- A population that has a destination has a writer.
    have entry := List.mem_map_of_mem (f := Prod.fst) (Destinations.mem_entries_iff.2 destination)
    rw [← populations] at entry
    obtain ⟨writer, inside, own⟩ := List.mem_map.1 entry
    have other := List.find?_eq_none.1 found writer inside
    exact absurd (decide_eq_true (own : writer.population = population)) other
  | some writer =>
    obtain ⟨path, -, isNew⟩ := all writer (List.mem_of_find?_eq_some found)
    simp only [view?, Option.bind_some, found, Option.map_some]
    exact congrArg some isNew.view

/-- What the file of a population holds after any calls: what those of the population make of a new
file. -/
theorem held?_afterAttempts {population : Population} {path : Path}
    (destination : destinations.pathFor? population = some path) (attempts : List Attempt) :
    held? (afterAttempts (run, after) attempts) population =
      let view := (FileView.fresh layout (layout.fileSchema globals created) format policy).afterAll
        (attempts.filter (·.snapshot.population = population))
      some (view.bytes, view.nextRecord) := by
  have apart := isApart_of_begin begun
  rw [held?_eq_map_view? (isApart_afterAttempts apart attempts), view?_afterAttempts apart,
    view?_of_begin begun destination]
  rfl

end Begun

/-- The two files of a run are the same when it was begun. After any calls, mixed in any order and
some of them failing for whatever reason, what the file of a population holds depends on the calls
of this population and their order alone, and it is what a run with a single file holds after
these calls. -/
theorem held_of_attempts {lifecycle run : Lifecycle} {primary twin : Path} {layout : RunLayout}
    {globals : GlobalAttributes} {created : Timestamp} {format : FileFormat}
    {policy : CompressionPolicy} {disk opened : Disk}
    (begun : lifecycle.begin ⟨primary, some twin⟩ layout globals created format policy disk =
      (.ok (), run, opened)) :
    (∃ bytes, ∀ population, held? (run, opened) population = some (bytes, 0)) ∧
    ∀ (attempts : List Attempt) (population : Population),
      (∃ held, held? (afterAttempts (run, opened) attempts) population = some held) ∧
      (∀ others : List Attempt,
        others.filter (·.snapshot.population = population) =
          attempts.filter (·.snapshot.population = population) →
        held? (afterAttempts (run, opened) others) population =
          held? (afterAttempts (run, opened) attempts) population) ∧
      ∀ path uncertain other single start,
        idle.begin ⟨path, none⟩ { layout with uncertain } globals created format policy other =
          (.ok (), single, start) →
        held? (afterAttempts (single, start)
            ((attempts.filter (·.snapshot.population = population)).map
              (·.withPopulation .base))) .base =
          held? (afterAttempts (run, opened) attempts) population := by
  have destination : ∀ population, ∃ path,
      (Destinations.mk primary (some twin)).pathFor? population = some path := by
    rintro (_ | _)
    · exact ⟨primary, rfl⟩
    · exact ⟨twin, rfl⟩
  let first := FileView.fresh layout (layout.fileSchema globals created) format policy
  refine ⟨⟨first.bytes, fun population => ?_⟩, fun attempts population => ?_⟩
  · obtain ⟨path, own⟩ := destination population
    exact held?_afterAttempts begun own []
  · obtain ⟨path, own⟩ := destination population
    have holds := held?_afterAttempts begun own
    refine ⟨⟨_, holds attempts⟩, fun others same => ?_, ?_⟩
    · -- Both are what the same calls make of a new file.
      rw [holds, holds, same]
    · intro path uncertain other single start alone
      -- In the run with a single file all calls are for the base population.
      have retagged : ∀ calls : List Attempt,
          (calls.map (·.withPopulation .base)).filter (·.snapshot.population = .base) =
            calls.map (·.withPopulation .base) := by
        intro calls
        rw [List.filter_eq_self]
        intro call mem
        obtain ⟨_, -, rfl⟩ := List.mem_map.1 mem
        exact decide_eq_true rfl
      rw [holds, held?_afterAttempts alone rfl, retagged, FileView.afterAll_map_withPopulation]
      rfl

end Lifecycle

/-! ## A small run with a twin -/

namespace TwinRun

def twin : Path := ⟨"run_uncertain"⟩

def destinations : Destinations := ⟨SmallRun.path, some twin⟩

def layout : RunLayout := { SmallRun.layout with uncertain := true }

/-- The disk with the primary file. -/
def middle : Disk := SmallRun.start

def start : Disk := TrajectoryFile.diskAfterCreate middle ["run_uncertain"] SmallRun.image

def writer (population : Population) (id : FileId) (path : Path) : Writer where
  file := ⟨id, path, SmallRun.image.header, SmallRun.image.header.dataOffset⟩
  population
  policy := .ofCodec .stored
  nextRecord := 0

def lifecycle : Lifecycle :=
  ⟨some ⟨layout, destinations, [writer .base 0 SmallRun.path, writer .uncertain 1 twin]⟩⟩

theorem checkPath_twin : Disk.checkPath twin = .ok () :=
  Disk.checkPath_eq_ok_iff.2 ⟨by simp [twin], by decide +kernel, by decide +kernel⟩

theorem findVacant_twin : middle.afterRequest.findVacant twin = .ok ["run_uncertain"] :=
  Disk.findVacant_eq_ok_iff.2 ⟨[], "run_uncertain", middle.afterRequest.findLast_of_bare
    checkPath_twin (by decide +kernel) (by decide +kernel) (by decide), by decide +kernel,
    by decide +kernel, rfl, rfl⟩

theorem validateTarget_twin : SmallRun.disk.validateTarget twin = .ok () := by
  have steps : Disk.steps twin.text = ["run_uncertain"] := by decide +kernel
  have origin : Disk.start SmallRun.disk.workingDirectory twin.text = [] := by decide +kernel
  have short : ¬Disk.maxNameLength < "run_uncertain".utf8ByteSize := by decide +kernel
  have vacant : SmallRun.disk.node? ["run_uncertain"] = none := rfl
  have here : twin.directory = SmallRun.path.directory := by decide +kernel
  have primary := Disk.validateTarget_ok_iff.1 SmallRun.validateTarget_path
  refine Disk.validateTarget_ok_iff.2 ⟨?_, by decide +kernel, here ▸ primary.2.2⟩
  simp [Disk.holds, Disk.lookup?, Disk.find, checkPath_twin, steps, origin, Disk.walk, short,
    vacant, bind, Except.bind]

theorem begin_eq :
    Lifecycle.idle.begin destinations layout {} SmallRun.time .classic (.ofCodec .stored)
      SmallRun.disk = (.ok (), lifecycle, start) := by
  have targets : Lifecycle.validateTargets SmallRun.disk destinations = .ok () := by
    simp [Lifecycle.validateTargets, destinations, Destinations.paths,
      SmallRun.validateTarget_path, validateTarget_twin, bind, Except.bind, pure, Except.pure]
  have reliable : middle.IsReliable :=
    (Writer.holds_create SmallRun.reliable SmallRun.create_on).1
  have primary : (Writer.create SmallRun.path .base layout SmallRun.schema .classic
      (.ofCodec .stored)).on SmallRun.disk = (.ok (writer .base 0 SmallRun.path), middle) :=
    SmallRun.create_on
  have second : (Writer.create twin .uncertain layout SmallRun.schema .classic
      (.ofCodec .stored)).on middle = (.ok (writer .uncertain 1 twin), start) := by
    rw [Writer.create,
      Action.on_bind_ok (TrajectoryFile.create_on reliable findVacant_twin _ _ _ _)]
    rfl
  have writers : (Lifecycle.createWriters layout SmallRun.schema .classic (.ofCodec .stored) []
      destinations.entries).on SmallRun.disk =
        (.ok [writer .base 0 SmallRun.path, writer .uncertain 1 twin], start) := by
    rw [destinations, Destinations.entries, Lifecycle.createWriters_cons_on, primary]
    dsimp only [Option.toList, List.map]
    rw [Lifecycle.createWriters_cons_on, second]
    rfl
  have schema : layout.fileSchema {} SmallRun.time = SmallRun.schema := rfl
  rw [Lifecycle.begin, if_neg (by decide), targets]
  simp only [schema, writers, lifecycle]

/-- Two particles of a population. -/
def pair (population : Population) : Snapshot := { SmallRun.pair with population }

/-- A call to the primary file. -/
def first : Attempt := ⟨⟨1, pair .base⟩, []⟩

/-- A call for a step that is not there. -/
def late : Attempt := ⟨⟨7, pair .base⟩, []⟩

/-- A call to the twin that is cut off in the middle of the table entry. -/
def torn : Attempt := ⟨⟨1, pair .uncertain⟩, [none, some ⟨.other "no space left", 3⟩]⟩

/-- A call to the twin. -/
def second : Attempt := ⟨⟨0, pair .uncertain⟩, []⟩

end TwinRun

/-- Two orders of the same calls give the same pair of files, and the calls to the twin alone give
the same file without the primary one. -/
theorem Lifecycle.held_twinRun :
    (∃ bytes, ∀ population, held? (TwinRun.lifecycle, TwinRun.start) population =
      some (bytes, 0)) ∧
    (∀ population,
      held? (afterAttempts (TwinRun.lifecycle, TwinRun.start)
          [TwinRun.torn, TwinRun.first, TwinRun.second, TwinRun.late]) population =
        held? (afterAttempts (TwinRun.lifecycle, TwinRun.start)
          [TwinRun.first, TwinRun.torn, TwinRun.late, TwinRun.second]) population) ∧
    held? (afterAttempts (SmallRun.lifecycle, SmallRun.start)
        [TwinRun.torn.withPopulation .base, TwinRun.second.withPopulation .base]) .base =
      held? (afterAttempts (TwinRun.lifecycle, TwinRun.start)
        [TwinRun.first, TwinRun.torn, TwinRun.late, TwinRun.second]) .uncertain := by
  obtain ⟨same, apart⟩ := held_of_attempts TwinRun.begin_eq
  have alone := (apart [TwinRun.first, TwinRun.torn, TwinRun.late, TwinRun.second] .uncertain).2.2
    SmallRun.path false SmallRun.disk SmallRun.lifecycle SmallRun.start SmallRun.begin_eq
  exact ⟨same, fun population => (apart _ population).2.1 _ (by cases population <;> rfl), alone⟩

end RaggedTrajectory
