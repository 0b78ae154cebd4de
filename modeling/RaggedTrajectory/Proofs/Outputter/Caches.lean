import RaggedTrajectory.Proofs.Outputter.Batches
import RaggedTrajectory.Proofs.Path.Twin
import RaggedTrajectory.Proofs.Snapshot.Cache

/-!
# Writing from a cache

To write what a source has for a step is to write its snapshots one after another, up to the first
that fails. Those of a cache are of different populations, and these have different files. So each
file is written once at most, also when the disk refuses requests, and its records become more by
those of one snapshot.

* `Outputter.writeEach_snd`: several snapshots as single calls.
* `Outputter.recordLength?_afterAll`: the records of a population after single calls.
* `Outputter.writesOnce_of_events`: what a cache holds, and what comes of writing it.
-/

namespace RaggedTrajectory

/-! ## Records of a population -/

/-- A call to a writer adds the records of the snapshot, or none. -/
theorem Writer.nextRecord_write (writer : Writer) (layout : RunLayout) (step : UInt32)
    (snapshot : Snapshot) (disk : Disk) :
    (writer.write layout step snapshot disk).2.1.nextRecord = writer.nextRecord ∨
      (writer.write layout step snapshot disk).2.1.nextRecord =
        writer.nextRecord + UInt64.ofNat snapshot.count := by
  unfold write
  split
  · exact .inl rfl
  · next record made =>
      -- The checks that come first do not matter for the count.
      have count : record.count = UInt64.ofNat snapshot.count := by
        unfold Writer.record at made
        split at made
        · cases made
        · split at made
          · cases made
          · obtain ⟨chunk, -, same⟩ := Error.bind_eq_ok_iff.1 made
            cases same
            rfl
      split
      · exact .inl rfl
      · exact .inr (congrArg (writer.nextRecord + ·) count)

namespace Lifecycle

/-- The number of records of a population is known to its writer. -/
theorem recordLength?_of_run {lifecycle : Lifecycle} {run : OpenRun}
    (opened : lifecycle.run = some run) (population : Population) :
    lifecycle.recordLength? population =
      (run.writers.find? fun writer => writer.population = population).map Writer.nextRecord := by
  rw [recordLength?, opened]
  cases found : run.writers.find? fun writer => writer.population = population <;>
    simp [found]

section Write

variable (lifecycle : Lifecycle) (step : UInt32) (snapshot : Snapshot) (disk : Disk)

/-- A call for another population adds no records. -/
theorem recordLength?_write_ne {population : Population}
    (other : population ≠ snapshot.population) :
    (lifecycle.write step snapshot disk).2.1.recordLength? population =
      lifecycle.recordLength? population := by
  obtain ⟨_ | run⟩ := lifecycle
  · rfl
  · rw [write, recordLength?_of_run rfl, recordLength?_of_run rfl,
      OpenRun.find?_writeWith_ne run.layout step snapshot disk run.writers other]

/-- A call adds the records of its snapshot, or none. -/
theorem recordLength?_write_self :
    (lifecycle.write step snapshot disk).2.1.recordLength? snapshot.population =
        lifecycle.recordLength? snapshot.population ∨
      (lifecycle.write step snapshot disk).2.1.recordLength? snapshot.population =
        (lifecycle.recordLength? snapshot.population).map (· + UInt64.ofNat snapshot.count) := by
  obtain ⟨_ | run⟩ := lifecycle
  · exact .inl rfl
  · have own := congrArg (Option.map FileView.nextRecord)
      (OpenRun.find?_writeWith_self run.layout step snapshot disk run.writers rfl)
    rw [Option.map_map, Option.map_map] at own
    rw [write, recordLength?_of_run rfl, recordLength?_of_run rfl]
    cases found : run.writers.find? fun writer => writer.population = snapshot.population with
    | none =>
      rw [found] at own
      exact .inl own
    | some writer =>
      rw [found] at own
      rcases (writer.view run.layout disk).writer.nextRecord_write
          (writer.view run.layout disk).layout step snapshot
          ((writer.view run.layout disk).disk disk.outages) with same | added
      · exact .inl (own.trans (congrArg some same))
      · exact .inr (own.trans (congrArg some added))

end Write

end Lifecycle

namespace Outputter

/-! ## Single calls -/

/-- The snapshots whose turn comes when snapshots are written one after another. -/
def triedEach (lifecycle : Lifecycle) (step : UInt32) (disk : Disk) :
    List Snapshot → List Snapshot
  | [] => []
  | snapshot :: rest =>
    match lifecycle.write step snapshot disk with
    | (.error _, _, _) => [snapshot]
    | (.ok _, lifecycle, disk) => snapshot :: triedEach lifecycle step disk rest

/-- These are the first ones. -/
theorem triedEach_prefix (lifecycle : Lifecycle) (step : UInt32) (disk : Disk)
    (snapshots : List Snapshot) : triedEach lifecycle step disk snapshots <+: snapshots := by
  induction snapshots generalizing lifecycle disk with
  | nil => exact List.prefix_refl []
  | cons snapshot snapshots ih =>
    unfold triedEach
    split
    · exact List.prefix_append [snapshot] snapshots
    · next later after _ => exact List.cons_prefix_cons.2 ⟨rfl, ih later after⟩

/-- To write snapshots one after another is to make a call for each of them that is tried. -/
theorem writeEach_snd (outputter : Outputter) (step : UInt32) (disk : Disk)
    (snapshots : List Snapshot) :
    ({ outputter with lifecycle := (writeEach outputter.lifecycle step disk snapshots).2.1 },
        (writeEach outputter.lifecycle step disk snapshots).2.2) =
      afterAll ((triedEach outputter.lifecycle step disk snapshots).map (.write step))
        (outputter, disk) := by
  induction snapshots generalizing outputter disk with
  | nil => rfl
  | cons snapshot snapshots ih =>
    have call := outputter.write_snd step snapshot disk
    rw [writeEach, triedEach]
    generalize outputter.lifecycle.write step snapshot disk = outcome at call
    obtain ⟨_ | range, lifecycle, after⟩ := outcome
    · -- The call that failed is the last one.
      exact call.symm
    · rw [List.map_cons, afterAll, List.foldl_cons, ← afterAll, Operation.apply, call]
      exact ih { outputter with lifecycle } after

section Calls

variable (step : UInt32) {population : Population}

/-- Calls for other populations add no records. -/
theorem recordLength?_afterAll_ne {snapshots : List Snapshot}
    (others : ∀ snapshot ∈ snapshots, snapshot.population ≠ population) (outputter : Outputter)
    (disk : Disk) :
    (afterAll (snapshots.map (.write step)) (outputter, disk)).1.lifecycle.recordLength?
      population = outputter.lifecycle.recordLength? population := by
  induction snapshots generalizing outputter disk with
  | nil => rfl
  | cons snapshot snapshots ih =>
    obtain ⟨first, rest⟩ := List.forall_mem_cons.1 others
    rw [List.map_cons, afterAll, List.foldl_cons, ← afterAll, Operation.apply, write_snd, ih rest]
    exact outputter.lifecycle.recordLength?_write_ne step snapshot disk first.symm

/-- Of calls for different populations one at most adds records for a population. -/
theorem recordLength?_afterAll {snapshots : List Snapshot}
    (distinct : snapshots.Pairwise fun first second => first.population ≠ second.population)
    (outputter : Outputter) (disk : Disk) :
    (afterAll (snapshots.map (.write step)) (outputter, disk)).1.lifecycle.recordLength?
        population = outputter.lifecycle.recordLength? population ∨
      ∃ snapshot ∈ snapshots, snapshot.population = population ∧
        (afterAll (snapshots.map (.write step)) (outputter, disk)).1.lifecycle.recordLength?
            population =
          (outputter.lifecycle.recordLength? population).map
            (· + UInt64.ofNat snapshot.count) := by
  induction snapshots generalizing outputter disk with
  | nil => exact .inl rfl
  | cons snapshot snapshots ih =>
    obtain ⟨first, rest⟩ := List.pairwise_cons.1 distinct
    rw [List.map_cons, afterAll, List.foldl_cons, ← afterAll, Operation.apply, write_snd]
    by_cases own : snapshot.population = population
    · -- The calls that follow are for other populations.
      subst own
      rw [recordLength?_afterAll_ne step fun other mem => (first other mem).symm]
      rcases outputter.lifecycle.recordLength?_write_self step snapshot disk with same | added
      · exact .inl same
      · exact .inr ⟨snapshot, List.mem_cons_self, rfl, added⟩
    · -- The call adds nothing, so that what the others add is added to what there was before.
      have same := outputter.lifecycle.recordLength?_write_ne step snapshot disk
        (Ne.symm own : population ≠ snapshot.population)
      have later := ih rest
        { outputter with lifecycle := (outputter.lifecycle.write step snapshot disk).2.1 }
        (outputter.lifecycle.write step snapshot disk).2.2
      rw [same] at later
      rcases later with kept | ⟨other, mem, population, added⟩
      · exact .inl kept
      · exact .inr ⟨other, List.mem_cons_of_mem _ mem, population, added⟩

end Calls

/-! ## Files of the populations -/

/-- Different populations have different files. -/
theorem destination?_not_same {outputter : Outputter} (sound : outputter.IsSound)
    {first second : Population} (different : first ≠ second) {path other : Path}
    (one : outputter.destination? first = some path)
    (two : outputter.destination? second = some other) : ¬path.Same other := by
  obtain ⟨run, opened, one⟩ := Option.bind_eq_some_iff.1 one
  rw [destination?, opened] at two
  have derived := sound.derived run.layout run.destinations (by rw [Lifecycle.plan?, opened]; rfl)
  replace two : run.destinations.pathFor? second = some other := two
  rw [derived] at one two
  cases first with
  | base =>
    obtain rfl := Option.some.inj one
    cases second with
    | base => exact absurd rfl different
    | uncertain => exact fun same => Path.not_same_of_derive two same.symm
  | uncertain =>
    cases second with
    | base =>
      obtain rfl := Option.some.inj two
      exact Path.not_same_of_derive one
    | uncertain => exact absurd rfl different

/-- What a call does that writes snapshots of different populations. -/
structure WritesOnce (outputter : Outputter) (step : UInt32) (snapshots : List Snapshot)
    (disk : Disk) (outcome : Outputter × Disk) : Prop where
  /-- It makes single calls for the first of the snapshots, and their files are different ones. -/
  calls : ∃ tried, tried <+: snapshots ∧
    outcome = afterAll (tried.map (.write step)) (outputter, disk) ∧
    (tried.filterMap fun snapshot => outputter.destination? snapshot.population).Pairwise
      fun first second => ¬first.Same second
  /-- A population gets the records of its snapshot, or none. -/
  records : ∀ population,
    outcome.1.lifecycle.recordLength? population =
        outputter.lifecycle.recordLength? population ∨
      ∃ snapshot ∈ snapshots, snapshot.population = population ∧
        outcome.1.lifecycle.recordLength? population =
          (outputter.lifecycle.recordLength? population).map (· + UInt64.ofNat snapshot.count)

theorem writesOnce_of_isSound {outputter : Outputter} (sound : outputter.IsSound) (step : UInt32)
    {source : SnapshotSource} {snapshots : List Snapshot} (disk : Disk)
    (given : (source step).toOption.getD [] = snapshots)
    (distinct : snapshots.Pairwise fun first second => first.population ≠ second.population) :
    outputter.WritesOnce step snapshots disk (outputter.writeOutput step source disk).2 := by
  have first := triedEach_prefix outputter.lifecycle step disk snapshots
  have apart := distinct.sublist first.sublist
  rw [writeOutput_snd, given, writeEach_snd]
  refine ⟨⟨_, first, rfl, ?_⟩, fun population => ?_⟩
  · rw [List.pairwise_filterMap]
    exact apart.imp fun different path one other two =>
      destination?_not_same sound different one two
  · rcases recordLength?_afterAll step apart outputter disk with same | ⟨snapshot, mem, added⟩
    · exact .inl same
    · exact .inr ⟨snapshot, first.subset mem, added⟩

/-- A cache holds for each step the last snapshot of every population, in the order in which they
were put in. To write them, by whatever outputter and on whatever disk, is to write each file once
at most. -/
theorem writesOnce_of_events {options : OutputOptions} {initial : Disk}
    {start outputter : Outputter} (made : build options initial = .ok start) {events : List Event}
    (happened : start.afterEvents events = outputter) {insertions : List Insertion}
    {cache : SnapshotCache} (filled : SnapshotCache.afterInsertions insertions = cache) :
    (∀ step, cache.Serves insertions step) ∧
      ∀ (step : UInt32) (disk : Disk), ∃ snapshots,
        (cache.load step.toNat = .ok snapshots ∨
          (∀ insertion ∈ insertions, insertion.step ≠ step.toNat) ∧ snapshots = []) ∧
        outputter.WritesOnce step snapshots disk
          (outputter.writeOutput step cache.source disk).2 := by
  subst filled
  have sound : outputter.IsSound :=
    happened ▸ isSound_afterEvents (isSound_of_build made).1 events
  refine ⟨SnapshotCache.serves_afterInsertions insertions, fun step disk => ?_⟩
  have serves := SnapshotCache.serves_afterInsertions insertions step.toNat
  by_cases some : ∃ insertion ∈ insertions, insertion.step = step.toNat
  · obtain ⟨timed, lists, loaded⟩ := serves.loaded some
    refine ⟨_, .inl loaded, writesOnce_of_isSound sound step disk ?_ (serves.distinct _ loaded)⟩
    rw [SnapshotCache.source, loaded]
    rfl
  · -- The source fails, and so there is nothing to write.
    have none : ∀ insertion ∈ insertions, insertion.step ≠ step.toNat :=
      fun insertion mem own => some ⟨insertion, mem, own⟩
    refine ⟨[], .inr ⟨none, rfl⟩, writesOnce_of_isSound sound step disk ?_ List.Pairwise.nil⟩
    rw [SnapshotCache.source, serves.missing.2 none]
    rfl

end Outputter

namespace TwinRun

/-- A faulty snapshot is replaced, and something is put in for another step. -/
def insertions : List Insertion :=
  [⟨0, short⟩, ⟨1, pair .base⟩, ⟨0, pair .base⟩, ⟨0, pair .uncertain⟩]

def cache : SnapshotCache := .afterInsertions insertions

theorem load_cache : cache.load 0 = .ok [pair .base, pair .uncertain] := rfl

end TwinRun

/-- The two files of a run are written once each. -/
theorem Outputter.writesOnce_twinRun :
    (build BlockedTwin.options SmallRun.disk).map (·.afterEvents TwinRun.events) =
        .ok TwinRun.outputter ∧
      TwinRun.cache.Serves TwinRun.insertions 0 ∧
      TwinRun.outputter.WritesOnce 0 [TwinRun.pair .base, TwinRun.pair .uncertain] TwinRun.start
        (TwinRun.outputter.writeOutput 0 TwinRun.cache.source TwinRun.start).2 := by
  have reached : (build BlockedTwin.options SmallRun.disk).map (·.afterEvents TwinRun.events) =
      .ok TwinRun.outputter := by
    rw [TwinRun.build_eq, Except.map, TwinRun.afterEvents_eq]
  have filled : SnapshotCache.afterInsertions TwinRun.insertions = TwinRun.cache := rfl
  obtain ⟨serves, once⟩ := writesOnce_of_events TwinRun.build_eq TwinRun.afterEvents_eq filled
  obtain ⟨snapshots, loaded | ⟨none, -⟩, writes⟩ := once 0 TwinRun.start
  · obtain rfl := Except.ok.inj (loaded.symm.trans TwinRun.load_cache)
    exact ⟨reached, serves 0, writes⟩
  · exact absurd rfl (none ⟨0, TwinRun.short⟩ List.mem_cons_self)

end RaggedTrajectory
