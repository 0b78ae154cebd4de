import RaggedTrajectory.Proofs.Lifecycle.Populations
import RaggedTrajectory.Proofs.Outputter.RunLock

/-!
# Several snapshots at once

The snapshots of a step are written one after another, and each of them is checked when its turn
comes. So a snapshot that is refused leaves no trace, nor do those behind it, but the ones before it
are in their files already. Writing all snapshots again, with the faulty one put right, writes these
a second time.

* `Outputter.writeEach_of_requirements`: which snapshots of a row are written.
* `Outputter.writeOutput_of_events`: what comes of the snapshots of a source.
-/

namespace RaggedTrajectory

open Requirement (firstFault)

/-! ## What a call leaves of a run and its disk -/

namespace Lifecycle

/-- Why a snapshot cannot be written, if it cannot. -/
def fault? (lifecycle : Lifecycle) (step : UInt32) (snapshot : Snapshot) : Option Error :=
  firstFault (lifecycle.requirements step snapshot)

theorem requirements_eq_of_plan? (lifecycle : Lifecycle) (step : UInt32) (snapshot : Snapshot) :
    lifecycle.requirements step snapshot =
      match lifecycle.plan? with
      | none => [⟨false, .writeTargetClosed⟩]
      | some (layout, destinations) =>
        (OpenRun.mk layout destinations []).requirements step snapshot := by
  obtain ⟨_ | run⟩ := lifecycle <;> rfl

/-- This depends on the layout and the destinations of the run alone. -/
theorem fault?_of_plan? {lifecycle other : Lifecycle} (plan : lifecycle.plan? = other.plan?)
    (step : UInt32) (snapshot : Snapshot) :
    lifecycle.fault? step snapshot = other.fault? step snapshot := by
  rw [fault?, fault?, requirements_eq_of_plan?, requirements_eq_of_plan?, plan]

/-- So does the receipt. -/
theorem receipt_of_plan? {lifecycle other : Lifecycle} (plan : lifecycle.plan? = other.plan?)
    (step : UInt32) (time : Timestamp) : lifecycle.receipt step time = other.receipt step time := by
  have known : ∀ lifecycle : Lifecycle, lifecycle.receipt step time =
      match lifecycle.plan? with
      | none => .error .writeTargetClosed
      | some (_, destinations) => .ok ⟨step, destinations.paths, time⟩ := by
    rintro ⟨_ | run⟩ <;> rfl
  rw [known, known, plan]

/-- Without a run nothing can be written. -/
theorem fault?_of_closed {lifecycle : Lifecycle} (closed : lifecycle.isOpen = false)
    (step : UInt32) (snapshot : Snapshot) :
    lifecycle.fault? step snapshot = some .writeTargetClosed := by
  rw [fault?, requirements_eq_of_plan?, plan?_eq_none closed]
  rfl

/-- A call to a reliable disk leaves a reliable disk. -/
theorem isReliable_write {disk : Disk} (reliable : disk.IsReliable)
    (lifecycle : Lifecycle) (step : UInt32) (snapshot : Snapshot) :
    (lifecycle.write step snapshot disk).2.2.IsReliable := by
  unfold write
  split
  · exact reliable
  · next run opened =>
      obtain ⟨id, wrote⟩ :=
        OpenRun.exists_writesOnly_writeWith run.layout step snapshot disk run.writers
      exact Disk.isReliable_of_writesOnly reliable wrote

end Lifecycle

namespace Outputter

/-! ## Snapshots one after another -/

/-- Of snapshots that are written one after another, those before the first one that is refused are
written, and its fault is the error. -/
theorem writeEach_of_requirements {outputter : Outputter} (sound : outputter.lifecycle.IsSound)
    {disk : Disk} (reliable : disk.IsReliable) (step : UInt32) (snapshots : List Snapshot) :
    Error.of? (writeEach outputter.lifecycle step disk snapshots).1 =
        snapshots.findSome? (outputter.lifecycle.fault? step) ∧
      ({ outputter with lifecycle := (writeEach outputter.lifecycle step disk snapshots).2.1 },
        (writeEach outputter.lifecycle step disk snapshots).2.2) =
      afterAll ((snapshots.takeWhile (outputter.lifecycle.fault? step · = none)).map (.write step))
        (outputter, disk) := by
  -- The induction is on the snapshots that are left; what is asked of them stays the same.
  induction snapshots generalizing outputter disk with
  | nil => exact ⟨rfl, rfl⟩
  | cons snapshot snapshots ih =>
    rcases Lifecycle.write_of_requirements sound reliable step snapshot with
      ⟨e, fault, refused⟩ | ⟨met, start, -, wrote⟩
    · have stop : outputter.lifecycle.fault? step snapshot = some e := fault
      rw [writeEach, refused, List.findSome?_cons, stop,
        List.takeWhile_cons_of_neg (by simp [stop])]
      exact ⟨rfl, rfl⟩
    · have goes : outputter.lifecycle.fault? step snapshot = none := met
      have plan := outputter.lifecycle.plan?_write step snapshot disk
      have later := Lifecycle.isSound_write sound step snapshot disk
      have still := Lifecycle.isReliable_write reliable outputter.lifecycle step snapshot
      have call := outputter.write_snd step snapshot disk
      rw [writeEach, List.findSome?_cons, goes, List.takeWhile_cons_of_pos (by simp [goes]),
        List.map_cons, afterAll, List.foldl_cons, ← afterAll, Operation.apply, call]
      -- The rest is written by the outputter and on the disk that the first call leaves.
      generalize outputter.lifecycle.write step snapshot disk = outcome at *
      obtain ⟨result, next, after⟩ := outcome
      obtain rfl : result = .ok _ := wrote
      have same : next.fault? step = outputter.lifecycle.fault? step :=
        funext fun other => Lifecycle.fault?_of_plan? plan step other
      have rest := @ih { outputter with lifecycle := next } later after still
      rw [same] at rest
      exact rest

/-- Whatever happened to an outputter, on a disk that grants every request the snapshots of a source
are written up to the first one that is refused. Its fault is the error, and it leaves no trace, nor
do the snapshots behind it; but those before it have been written. If the first snapshot is refused,
or there is none, everything is as before. -/
theorem writeOutput_of_events {options : OutputOptions} {initial disk : Disk}
    {start outputter : Outputter} (made : build options initial = .ok start) {events : List Event}
    (happened : start.afterEvents events = outputter) (reliable : disk.IsReliable) (step : UInt32)
    (source : SnapshotSource) :
    (outputter.writeOutput step source disk).1 =
      (if outputter.lifecycle.isOpen = false then .error .writeTargetClosed
      else
        match source step with
        | .error e => .error e
        | .ok [] => .error (.refused (.noSnapshots step.toNat))
        | .ok (first :: rest) =>
          match (first :: rest).findSome? (outputter.lifecycle.fault? step) with
          | some e => .error e
          | none => outputter.lifecycle.receipt step first.time) ∧
    (outputter.writeOutput step source disk).2 =
      afterAll ((((source step).toOption.getD []).takeWhile
        (outputter.lifecycle.fault? step · = none)).map (.write step)) (outputter, disk) := by
  have sound : outputter.IsSound :=
    happened ▸ isSound_afterEvents (isSound_of_build made).1 events
  cases opened : outputter.lifecycle.isOpen with
  | false =>
    -- Without a run every snapshot is refused, whatever the source has.
    have none : ((source step).toOption.getD []).takeWhile
        (outputter.lifecycle.fault? step · = none) = [] := by
      cases (source step).toOption.getD [] with
      | nil => rfl
      | cons first rest =>
        exact List.takeWhile_cons_of_neg (by simp [Lifecycle.fault?_of_closed opened])
    rw [writeOutput_of_closed opened, none]
    exact ⟨rfl, rfl⟩
  | true =>
    -- With a run the source is asked first, and then its snapshots are written in their order.
    unfold writeOutput
    rw [if_neg (by simp [opened]), if_neg (by simp)]
    cases source step with
    | error e => exact ⟨rfl, rfl⟩
    | ok snapshots =>
      match snapshots with
      | [] => exact ⟨rfl, rfl⟩
      | first :: rest =>
        obtain ⟨result, state⟩ :=
          writeEach_of_requirements sound.lifecycle reliable step (first :: rest)
        have plan := plan?_writeEach outputter.lifecycle step disk (first :: rest)
        dsimp only
        rw [← result]
        generalize writeEach outputter.lifecycle step disk (first :: rest) = outcome at *
        obtain ⟨_ | _, lifecycle, after⟩ := outcome
        · exact ⟨rfl, state⟩
        · exact ⟨Lifecycle.receipt_of_plan? plan step first.time, state⟩

end Outputter

namespace TwinRun

theorem build_eq :
    Outputter.build BlockedTwin.options SmallRun.disk = .ok BlockedTwin.outputter := by
  have target : SmallRun.disk.validateTarget SmallRun.path = .ok () := SmallRun.validateTarget_path
  have usable : BlockedTwin.outputter.config.validate = .ok () := by decide +kernel
  simp only [BlockedTwin.outputter] at usable
  simp [Outputter.build, Outputter.create, BlockedTwin.options, target, usable, Error.ok_bind,
    BlockedTwin.outputter]

def outputter : Outputter := { BlockedTwin.outputter with lifecycle }

theorem prepare_eq :
    BlockedTwin.outputter.prepare (BlockedTwin.parameters true) SmallRun.time SmallRun.disk =
      (.ok destinations, outputter, start) := by
  have planned : BlockedTwin.outputter.registry.plan (BlockedTwin.parameters true)
    BlockedTwin.outputter.config.allData = .ok layout := rfl
  have derived : Destinations.derive BlockedTwin.outputter.config.path layout.uncertain =
      destinations := BlockedTwin.derive_eq
  have begun : BlockedTwin.outputter.lifecycle.begin destinations layout
      BlockedTwin.outputter.globals SmallRun.time BlockedTwin.outputter.config.format
      BlockedTwin.outputter.config.policy SmallRun.disk = (.ok (), lifecycle, start) := begin_eq
  have idle : ¬BlockedTwin.outputter.lifecycle.isOpen = true := by decide
  simp only [Outputter.prepare, if_neg idle, planned, derived, begun]
  rfl

/-- A run with a twin is prepared. -/
def events : List Event := [⟨.prepare (BlockedTwin.parameters true) SmallRun.time, SmallRun.disk⟩]

theorem afterEvents_eq : BlockedTwin.outputter.afterEvents events = outputter :=
  congrArg (fun outcome => outcome.2.1) prepare_eq

theorem isReliable_start : start.IsReliable := fun outage mem => by cases mem

/-- A snapshot that says it has three particles, and has the masses of two. -/
def short : Snapshot := { pair .uncertain with count := 3 }

/-- The snapshots of a step, the second of them faulty. -/
def faulty : SnapshotSource := fun _ => .ok [pair .base, short]

/-- The same snapshots with the second one put right. -/
def corrected : SnapshotSource := fun _ => .ok [pair .base, pair .uncertain]

end TwinRun

namespace Outputter

/-- The snapshot before the faulty one is written. -/
theorem writeOutput_twinRun :
    (TwinRun.outputter.writeOutput 0 TwinRun.faulty TwinRun.start).1 =
        .error (.particleCountMismatch "mass" 3 2) ∧
      (TwinRun.outputter.writeOutput 0 TwinRun.faulty TwinRun.start).2 =
        afterAll [.write 0 (TwinRun.pair .base)] (TwinRun.outputter, TwinRun.start) := by
  have written := writeOutput_of_events TwinRun.build_eq TwinRun.afterEvents_eq
    TwinRun.isReliable_start 0 TwinRun.faulty
  exact written

/-- A call fails, and the primary file has two records more. The call is made again with the faulty
snapshot put right, and there are two more, though the twin has its two only. -/
theorem writeOutput_faulty :
    let failed := TwinRun.outputter.writeOutput 0 TwinRun.faulty TwinRun.start
    let repeated := failed.2.1.writeOutput 0 TwinRun.corrected failed.2.2
    (build BlockedTwin.options SmallRun.disk).map (·.afterEvents TwinRun.events) =
        .ok TwinRun.outputter ∧
      TwinRun.outputter.lifecycle.recordLength? .base = some 0 ∧
      failed.1 = .error (.particleCountMismatch "mass" 3 2) ∧
      failed.2.1.lifecycle.recordLength? .base = some 2 ∧
      repeated.1 = .ok ⟨0, TwinRun.destinations.paths, SmallRun.time⟩ ∧
      repeated.2.1.lifecycle.recordLength? .base = some 4 ∧
      repeated.2.1.lifecycle.recordLength? .uncertain = some 2 := by
  have reached : (build BlockedTwin.options SmallRun.disk).map (·.afterEvents TwinRun.events) =
      .ok TwinRun.outputter := by
    rw [TwinRun.build_eq, Except.map, TwinRun.afterEvents_eq]
  exact ⟨reached, rfl, rfl, rfl, rfl, rfl, rfl⟩

end Outputter

end RaggedTrajectory
