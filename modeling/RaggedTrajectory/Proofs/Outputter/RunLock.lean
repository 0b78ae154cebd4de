import Mathlib.Data.List.Induction
import RaggedTrajectory.Proofs.Outputter.Events

/-!
# The lock of a run

An outputter has a run from the time it was prepared to the time it is rewound. In between nothing
that the files of the run depend on can be changed, and no other run can be begun; without a run
nothing can be written.

* `Outputter.isOpen_apply_iff`: what begins and what ends a run.
* `Outputter.isOpen_afterEvents_iff`: when there is a run.
* `Outputter.terms_afterEvents`: what stays as it is during a run.
* `Outputter.isGuarded_of_events`: the lock, whatever happened to an outputter.
-/

namespace RaggedTrajectory

namespace Outputter

/-- What a run is made with: the configuration, the global attributes, and the layout and the
destinations. -/
def terms (outputter : Outputter) :
    OutputConfig × GlobalAttributes × Option (RunLayout × Destinations) :=
  (outputter.config, outputter.globals, outputter.lifecycle.plan?)

/-! ## Single operations -/

section Operations

variable {outputter : Outputter}

theorem prepare_of_open (opened : outputter.lifecycle.isOpen = true) (parameters : RunParameters)
    (created : Timestamp) (disk : Disk) :
    outputter.prepare parameters created disk = (.error .alreadyRunning, outputter, disk) :=
  if_pos opened

theorem write_of_closed (closed : outputter.lifecycle.isOpen = false) (step : UInt32)
    (snapshot : Snapshot) (disk : Disk) :
    outputter.write step snapshot disk = (.error .writeTargetClosed, outputter, disk) := by
  obtain ⟨config, globals, registry, _ | run⟩ := outputter
  · rfl
  · cases closed

theorem writeOutput_of_closed (closed : outputter.lifecycle.isOpen = false) (step : UInt32)
    (source : SnapshotSource) (disk : Disk) :
    outputter.writeOutput step source disk = (.error .writeTargetClosed, outputter, disk) := by
  rw [writeOutput, if_pos]
  rw [closed]
  exact Bool.false_ne_true

/-- A call keeps what its run is made with. -/
theorem terms_write (outputter : Outputter) (step : UInt32) (snapshot : Snapshot) (disk : Disk) :
    (outputter.write step snapshot disk).2.1.terms = outputter.terms := by
  rw [write_snd, terms, outputter.lifecycle.plan?_write]
  rfl

theorem terms_writeOutput (outputter : Outputter) (step : UInt32) (source : SnapshotSource)
    (disk : Disk) : (outputter.writeOutput step source disk).2.1.terms = outputter.terms := by
  rw [writeOutput_snd, terms, plan?_writeEach]
  rfl

/-- During a run every operation but to rewind keeps what the run is made with. -/
theorem terms_apply (opened : outputter.lifecycle.isOpen = true) {operation : Operation}
    (other : operation ≠ .rewind) (disk : Disk) :
    (operation.apply (outputter, disk)).1.terms = outputter.terms := by
  cases operation with
  | set change => rw [Operation.apply, set_of_open opened]
  | prepare parameters created => rw [Operation.apply, prepare_of_open opened]
  | write step snapshot => exact outputter.terms_write step snapshot disk
  | writeOutput step source => exact outputter.terms_writeOutput step source disk
  | rewind => exact absurd rfl other

/-- With the same terms there is a run as before. -/
theorem isOpen_of_terms {next : Outputter} (same : next.terms = outputter.terms) :
    next.lifecycle.isOpen = outputter.lifecycle.isOpen := by
  rw [Lifecycle.isOpen_eq_isSome_plan?, Lifecycle.isOpen_eq_isSome_plan?]
  exact congrArg (fun terms => terms.2.2.isSome) same

/-- A change of a setting is no matter of the run. -/
theorem lifecycle_set (outputter : Outputter) (change : Change) (disk : Disk) :
    (outputter.set change disk).2.lifecycle = outputter.lifecycle := by
  unfold set
  split
  · rfl
  · split
    · rfl
    · dsimp only
      split <;> rfl

/-- After an operation there is a run if it was prepared by the operation, or if there was one and
it was not rewound. -/
theorem isOpen_apply_iff (outputter : Outputter) (operation : Operation) (disk : Disk) :
    (operation.apply (outputter, disk)).1.lifecycle.isOpen = true ↔
      (∃ parameters created destinations, operation = .prepare parameters created ∧
        (outputter.prepare parameters created disk).1 = .ok destinations) ∨
      outputter.lifecycle.isOpen = true ∧ operation ≠ .rewind := by
  cases operation with
  | set change =>
    rw [Operation.apply, lifecycle_set]
    simp
  | prepare parameters created =>
    rw [Operation.apply]
    cases ran : outputter.prepare parameters created disk with
    | mk result rest =>
      obtain ⟨next, after⟩ := rest
      cases result with
      | error e =>
        -- The outputter is as before, so it has a run if it had one.
        have refused := prepare_of_error (congrArg Prod.fst ran)
        rw [ran] at refused
        subst refused
        simp [ran]
      | ok destinations =>
        -- The run that was begun has a layout, so it is there.
        obtain ⟨-, layout, lifecycle, -, -, begun, rfl⟩ := prepare_eq_ok ran
        have opened : lifecycle.isOpen = true := by
          rw [Lifecycle.isOpen_eq_isSome_plan?, Lifecycle.plan?_of_begin begun]
          rfl
        exact ⟨fun _ => .inl ⟨parameters, created, destinations, rfl, congrArg Prod.fst ran⟩,
          fun _ => opened⟩
  | write step snapshot =>
    rw [Operation.apply, isOpen_of_terms (outputter.terms_write step snapshot disk)]
    simp
  | writeOutput step source =>
    rw [Operation.apply, isOpen_of_terms (outputter.terms_writeOutput step source disk)]
    simp
  | rewind =>
    rw [Operation.apply, rewind_fst]
    simp [Lifecycle.idle, Lifecycle.isOpen]

end Operations

/-! ## Everything that happens to an outputter -/

/-- There is a run exactly if one was prepared and nothing has been rewound since. -/
theorem isOpen_afterEvents_iff {outputter : Outputter} (idle : outputter.lifecycle = .idle)
    (events : List Event) :
    (outputter.afterEvents events).lifecycle.isOpen = true ↔
      ∃ before parameters created disk after,
        events = before ++ ⟨.prepare parameters created, disk⟩ :: after ∧
        (∃ destinations, ((outputter.afterEvents before).prepare parameters created disk).1 =
          .ok destinations) ∧
        ∀ event ∈ after, event.operation ≠ .rewind := by
  -- The induction goes by the last event: it has prepared the run, or it has kept it.
  induction events using List.reverseRecOn with
  | nil =>
    rw [afterEvents, List.foldl_nil, idle]
    simp [Lifecycle.idle, Lifecycle.isOpen]
  | append_singleton events event ih =>
    obtain ⟨operation, disk⟩ := event
    have last : outputter.afterEvents (events ++ [⟨operation, disk⟩]) =
        (operation.apply (outputter.afterEvents events, disk)).1 :=
      outputter.afterEvents_append events [⟨operation, disk⟩]
    rw [last, isOpen_apply_iff, ih]
    constructor
    · -- Either nothing has happened since, or what has happened gets longer by the last event.
      rintro (⟨parameters, created, destinations, rfl, prepared⟩ |
        ⟨⟨before, parameters, created, other, after, rfl, prepared, kept⟩, further⟩)
      · exact ⟨events, parameters, created, disk, [], rfl, ⟨destinations, prepared⟩,
          fun event mem => by cases mem⟩
      · refine ⟨before, parameters, created, other, after ++ [⟨operation, disk⟩],
          by rw [List.append_assoc, List.cons_append], prepared, fun event mem => ?_⟩
        rcases List.mem_append.1 mem with mem | mem
        · exact kept event mem
        · obtain rfl := List.mem_singleton.1 mem
          exact further
    · -- The last event stands behind the one that prepared the run, or it is this one itself.
      rintro ⟨before, parameters, created, other, after, split, prepared, kept⟩
      rcases List.eq_nil_or_concat after with rfl | ⟨earlier, event, rfl⟩
      · obtain ⟨rfl, same⟩ := List.append_inj' split rfl
        cases same
        obtain ⟨destinations, prepared⟩ := prepared
        exact .inl ⟨parameters, created, destinations, rfl, prepared⟩
      · rw [List.concat_eq_append, ← List.cons_append, ← List.append_assoc] at split
        obtain ⟨rfl, same⟩ := List.append_inj' split rfl
        cases same
        rw [List.concat_eq_append] at kept
        exact .inr ⟨⟨before, parameters, created, other, earlier, rfl, prepared,
          fun event mem => kept event (List.mem_append_left _ mem)⟩,
          kept _ (List.mem_append_right _ List.mem_cons_self)⟩

/-- During a run nothing that it is made with changes. -/
theorem terms_afterEvents {outputter : Outputter} (opened : outputter.lifecycle.isOpen = true)
    {events : List Event} (kept : ∀ event ∈ events, event.operation ≠ .rewind) :
    (outputter.afterEvents events).terms = outputter.terms := by
  induction events generalizing outputter with
  | nil => rfl
  | cons event events ih =>
    obtain ⟨first, others⟩ := List.forall_mem_cons.1 kept
    -- With its terms the outputter keeps the run, which the next events need.
    have same := terms_apply opened first event.disk
    exact (ih ((isOpen_of_terms same).trans opened) others).trans same

/-- What can be done to an outputter, with a run and without. -/
structure IsGuarded (outputter : Outputter) : Prop where
  /-- During a run no setting can be changed. -/
  locked : outputter.lifecycle.isOpen = true → ∀ change disk,
    outputter.set change disk = (.error (.configurationLocked change.setting), outputter)
  /-- During a run no other run can be prepared; outputter and disk are left as they are. -/
  running : outputter.lifecycle.isOpen = true → ∀ parameters created disk,
    outputter.prepare parameters created disk = (.error .alreadyRunning, outputter, disk)
  /-- Configuration, global attributes, layout and destinations stay until the run is rewound. -/
  fixed : outputter.lifecycle.isOpen = true → ∀ events : List Event,
    (∀ event ∈ events, event.operation ≠ .rewind) →
    (outputter.afterEvents events).terms = outputter.terms
  /-- Without a run nothing can be written. -/
  closed : outputter.lifecycle.isOpen = false → ∀ step disk,
    (∀ snapshot, outputter.write step snapshot disk =
      (.error .writeTargetClosed, outputter, disk)) ∧
    ∀ source, outputter.writeOutput step source disk = (.error .writeTargetClosed, outputter, disk)
  /-- The configuration can be used. -/
  valid : outputter.config.validate = .ok ()
  /-- A change that is refused, for whatever reason, leaves everything as it was. -/
  unchanged : ∀ change disk e, (outputter.set change disk).1 = .error e →
    (outputter.set change disk).2 = outputter
  /-- A change is taken over if there is no run, if its check is passed, and if the configuration
  that it gives can be used. -/
  taken : ∀ change disk, (outputter.set change disk).1 = .ok () ↔
    outputter.lifecycle.isOpen = false ∧ change.check disk = .ok () ∧
      (change.applyTo outputter.config).validate = .ok ()
  /-- Then it is the only change. -/
  changed : ∀ change disk, (outputter.set change disk).1 = .ok () →
    (outputter.set change disk).2 = { outputter with
      config := change.applyTo outputter.config
      globals := change.applyToGlobals outputter.globals }

theorem isGuarded_of_isSound {outputter : Outputter} (sound : outputter.IsSound) :
    outputter.IsGuarded where
  locked opened := set_of_open opened
  running opened := prepare_of_open opened
  fixed opened _ kept := terms_afterEvents opened kept
  closed closed step disk := ⟨fun snapshot => write_of_closed closed step snapshot disk,
    fun source => writeOutput_of_closed closed step source disk⟩
  valid := sound.valid
  unchanged change disk e refused := set_eq_error (Prod.ext refused rfl)
  taken change disk := by
    constructor
    · intro ran
      obtain ⟨closed, checked, usable, -⟩ := set_eq_ok sound.valid (Prod.ext ran rfl)
      exact ⟨closed, checked, usable⟩
    · rintro ⟨closed, checked, usable⟩
      rw [set_of_closed closed sound.valid, checked, Error.ok_bind, usable]
  changed change disk ran := by
    obtain ⟨-, -, -, same⟩ := set_eq_ok sound.valid (Prod.ext ran rfl)
    exact same

/-- Whatever happened to a new outputter, on whatever disks: it has a run exactly from a run that
was prepared to the next time it is rewound, and what can be done to it is guarded accordingly. -/
theorem isGuarded_of_events {options : OutputOptions} {disk : Disk} {outputter : Outputter}
    (made : build options disk = .ok outputter) (events : List Event) :
    ((outputter.afterEvents events).lifecycle.isOpen = true ↔
      ∃ before parameters created disk after,
        events = before ++ ⟨.prepare parameters created, disk⟩ :: after ∧
        (∃ destinations, ((outputter.afterEvents before).prepare parameters created disk).1 =
          .ok destinations) ∧
        ∀ event ∈ after, event.operation ≠ .rewind) ∧
    (outputter.afterEvents events).IsGuarded := by
  obtain ⟨sound, idle⟩ := isSound_of_build made
  exact ⟨isOpen_afterEvents_iff idle events,
    isGuarded_of_isSound (isSound_afterEvents sound events)⟩

end Outputter

namespace BlockedTwin

def options : OutputOptions where
  path := some SmallRun.path
  compress := false
  format := .classic
  codec := .stored

theorem build_eq : Outputter.build options disk = .ok outputter := by
  have target : disk.validateTarget SmallRun.path = .ok () := validateTarget_path
  have usable : outputter.config.validate = .ok () := by decide +kernel
  simp only [outputter] at usable
  simp [Outputter.build, Outputter.create, options, target, usable, Error.ok_bind, outputter]

/-- A run whose twin cannot be made, and a change that the configuration does not allow. -/
def refused : List Event :=
  [⟨.prepare (parameters true) SmallRun.time, disk⟩, ⟨.set (.compress true), disk⟩]

/-- A run that can be made, a change in the middle of it, and a call. -/
def events : List Event :=
  refused ++ ⟨.prepare (parameters false) SmallRun.time, disk⟩ ::
    [⟨.set (.allData true), disk⟩, ⟨.write 1 SmallRun.pair, disk⟩]

theorem afterEvents_refused : outputter.afterEvents refused = outputter := by
  obtain ⟨last, begun⟩ := begin_uncertain
  have prepared : (outputter.prepare (parameters true) SmallRun.time disk).2.1 = outputter := by
    rw [prepare_eq true begun]
    rfl
  have unusable : ((Change.compress true).applyTo outputter.config).validate =
      .error (.config .noCodec) := by decide +kernel
  have usable : outputter.config.validate = .ok () := by decide +kernel
  show ((outputter.prepare (parameters true) SmallRun.time disk).2.1.set (.compress true)
    disk).2 = outputter
  rw [prepared, Outputter.set_of_closed rfl usable, unusable]
  rfl

end BlockedTwin

/-- Before the run is prepared nothing can be written. From then on no setting can be changed. -/
theorem Outputter.isGuarded_blockedTwin :
    ((BlockedTwin.outputter.afterEvents BlockedTwin.refused).write 1 SmallRun.pair
      BlockedTwin.disk).1 = .error .writeTargetClosed ∧
    (BlockedTwin.outputter.afterEvents BlockedTwin.events).lifecycle.isOpen = true ∧
    ((BlockedTwin.outputter.afterEvents BlockedTwin.events).set (.format .enhanced)
      BlockedTwin.disk).1 = .error (.configurationLocked .format) := by
  have before := (isGuarded_of_events BlockedTwin.build_eq BlockedTwin.refused).2
  have during := isGuarded_of_events BlockedTwin.build_eq BlockedTwin.events
  have closed : (BlockedTwin.outputter.afterEvents BlockedTwin.refused).lifecycle.isOpen =
      false := by
    rw [BlockedTwin.afterEvents_refused]
    rfl
  have opened : (BlockedTwin.outputter.afterEvents BlockedTwin.events).lifecycle.isOpen = true := by
    obtain ⟨run, last, begun⟩ := BlockedTwin.begin_plain
    refine during.1.2 ⟨BlockedTwin.refused, BlockedTwin.parameters false, SmallRun.time,
      BlockedTwin.disk, _, rfl, ⟨.derive SmallRun.path false, ?_⟩, ?_⟩
    · rw [BlockedTwin.afterEvents_refused, BlockedTwin.prepare_eq false begun]
      rfl
    · simp
  exact ⟨congrArg Prod.fst ((before.closed closed 1 BlockedTwin.disk).1 SmallRun.pair), opened,
    congrArg Prod.fst (during.2.locked opened (.format .enhanced) BlockedTwin.disk)⟩

end RaggedTrajectory
