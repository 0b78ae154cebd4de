import RaggedTrajectory.Proofs.Outputter.Files

/-!
# What happens to an outputter

An outputter meets one operation after the other, each of them on a disk that others may have
changed since the one before. Whatever these disks are and whatever comes of the operations, its
configuration can be used, its path was free when it was set, and an open run goes to the files that
the path gives.

* `Outputter.set_of_closed`: one equation for every setting.
* `Outputter.isSound_apply`: one operation keeps the invariant.
* `Outputter.isSound_afterEvents`: so do all that happen to an outputter.
-/

namespace RaggedTrajectory

/-- An operation and the disk that it meets. -/
structure Event where
  operation : Operation
  disk : Disk

/-- Global attributes with the new value. The other settings are not part of them. -/
def Change.applyToGlobals : Change → GlobalAttributes → GlobalAttributes
  | globalAttributes value, _ => value
  | _, globals => globals

/-! ## Lifecycles -/

namespace Lifecycle

/-- There is a run if there is a layout. -/
theorem isOpen_eq_isSome_plan? (lifecycle : Lifecycle) :
    lifecycle.isOpen = lifecycle.plan?.isSome := by
  rw [isOpen, plan?, Option.isSome_map]

theorem plan?_eq_none {lifecycle : Lifecycle} (closed : lifecycle.isOpen = false) :
    lifecycle.plan? = none := by
  rw [isOpen_eq_isSome_plan?, Option.isSome_eq_false_iff] at closed
  exact Option.isNone_iff_eq_none.1 closed

/-- To rewind ends the run, whatever comes of it. -/
theorem rewind_fst (lifecycle : Lifecycle) (disk : Disk) : (lifecycle.rewind disk).2.1 = idle := by
  obtain ⟨_ | run⟩ := lifecycle <;> rfl

end Lifecycle

namespace Outputter

/-! ## Single operations -/

section Operations

variable {outputter : Outputter} {disk : Disk}

theorem set_of_open (opened : outputter.lifecycle.isOpen = true) (change : Change) (disk : Disk) :
    outputter.set change disk = (.error (.configurationLocked change.setting), outputter) :=
  if_pos opened

/-- Between runs a change is taken over if it passes its check and the configuration that it gives
can be used. Global attributes are no exception, as they leave the configuration as it is. -/
theorem set_of_closed (closed : outputter.lifecycle.isOpen = false)
    (valid : outputter.config.validate = .ok ()) (change : Change) (disk : Disk) :
    outputter.set change disk =
      match (do change.check disk; (change.applyTo outputter.config).validate) with
      | .error e => (.error e, outputter)
      | .ok () => (.ok (), { outputter with
          config := change.applyTo outputter.config
          globals := change.applyToGlobals outputter.globals }) := by
  have unlocked : ¬outputter.lifecycle.isOpen = true := by
    rw [closed]
    exact Bool.false_ne_true
  unfold set
  rw [if_neg unlocked]
  cases change with
  | globalAttributes globals =>
    have passes : (do Change.check disk (.globalAttributes globals); outputter.config.validate) =
        .ok () := valid
    simp only [Change.applyTo, passes, Change.applyToGlobals]
  | path _ | allData _ | compress _ | format _ | codec _ => rfl

/-- A change that is taken over has passed its check, and its configuration can be used. -/
theorem set_eq_ok (valid : outputter.config.validate = .ok ()) {change : Change}
    {next : Outputter} (taken : outputter.set change disk = (.ok (), next)) :
    outputter.lifecycle.isOpen = false ∧ change.check disk = .ok () ∧
      (change.applyTo outputter.config).validate = .ok () ∧
      next = { outputter with
        config := change.applyTo outputter.config
        globals := change.applyToGlobals outputter.globals } := by
  cases opened : outputter.lifecycle.isOpen with
  | true =>
    rw [set_of_open opened] at taken
    cases taken
  | false =>
    rw [set_of_closed opened valid] at taken
    split at taken
    · cases taken
    · next passes =>
        cases taken
        obtain ⟨_, checked, usable⟩ := Error.bind_eq_ok_iff.1 passes
        exact ⟨rfl, checked, usable, rfl⟩

/-- A change that is refused leaves the outputter as it was. -/
theorem set_eq_error {change : Change} {e : Error} {next : Outputter}
    (refused : outputter.set change disk = (.error e, next)) : next = outputter := by
  unfold set at refused
  split at refused
  · cases refused
    rfl
  · split at refused
    · cases refused
    · dsimp only at refused
      split at refused <;> cases refused
      rfl

/-- A run that was prepared is the one that was planned, in the files that the path gives. -/
theorem prepare_eq_ok {parameters : RunParameters} {created : Timestamp}
    {destinations : Destinations} {next : Outputter} {after : Disk}
    (prepared : outputter.prepare parameters created disk = (.ok destinations, next, after)) :
    outputter.lifecycle.isOpen = false ∧ ∃ layout lifecycle,
      outputter.registry.plan parameters outputter.config.allData = .ok layout ∧
      destinations = .derive outputter.config.path layout.uncertain ∧
      outputter.lifecycle.begin destinations layout outputter.globals created
        outputter.config.format outputter.config.policy disk = (.ok (), lifecycle, after) ∧
      next = { outputter with lifecycle } := by
  unfold prepare at prepared
  dsimp only at prepared
  split at prepared
  · cases prepared
  · next closed =>
      refine ⟨Bool.eq_false_iff.2 closed, ?_⟩
      split at prepared
      · cases prepared
      · next layout planned =>
          split at prepared
          · cases prepared
          · next lifecycle after begun =>
              cases prepared
              exact ⟨layout, lifecycle, planned, rfl, begun, rfl⟩

/-- Without a run nothing is written. -/
theorem writeEach_of_closed {lifecycle : Lifecycle} (closed : lifecycle.run = none) (step : UInt32)
    (disk : Disk) (snapshots : List Snapshot) :
    (writeEach lifecycle step disk snapshots).2 = (lifecycle, disk) := by
  cases snapshots with
  | nil => rfl
  | cons snapshot snapshots =>
    have refused : lifecycle.write step snapshot disk =
        (.error .writeTargetClosed, lifecycle, disk) := by
      rw [Lifecycle.write, closed]
    rw [writeEach, refused]

/-- Writing from a source is writing its snapshots one after another. A source that fails has
none. -/
theorem writeOutput_snd (outputter : Outputter) (step : UInt32) (source : SnapshotSource)
    (disk : Disk) :
    (outputter.writeOutput step source disk).2 =
      ({ outputter with
          lifecycle := (writeEach outputter.lifecycle step disk
            ((source step).toOption.getD [])).2.1 },
        (writeEach outputter.lifecycle step disk ((source step).toOption.getD [])).2.2) := by
  unfold writeOutput
  split
  · next closed =>
      have idle : outputter.lifecycle.run = none := Option.not_isSome_iff_eq_none.1 closed
      rw [writeEach_of_closed idle]
  · cases source step with
    | error e => rfl
    | ok snapshots =>
      cases snapshots with
      | nil => rfl
      | cons first rest =>
        rw [Except.toOption, Option.getD_some]
        dsimp only
        split <;> next ran => rw [ran]

/-- What every call keeps, several calls keep. -/
theorem writeEach_keeps (Keeps : Lifecycle → Prop) {step : UInt32}
    (call : ∀ (lifecycle : Lifecycle) (snapshot : Snapshot) (disk : Disk), Keeps lifecycle →
      Keeps (lifecycle.write step snapshot disk).2.1)
    {lifecycle : Lifecycle} (keeps : Keeps lifecycle) (disk : Disk) (snapshots : List Snapshot) :
    Keeps (writeEach lifecycle step disk snapshots).2.1 := by
  induction snapshots generalizing lifecycle disk with
  | nil => exact keeps
  | cons snapshot snapshots ih =>
    have kept := call lifecycle snapshot disk keeps
    unfold writeEach
    split
    · next refused =>
        rw [refused] at kept
        exact kept
    · next after wrote =>
        rw [wrote] at kept
        exact ih kept after

/-- Layout and destinations of the run, for one. -/
theorem plan?_writeEach (lifecycle : Lifecycle) (step : UInt32) (disk : Disk)
    (snapshots : List Snapshot) :
    (writeEach lifecycle step disk snapshots).2.1.plan? = lifecycle.plan? :=
  writeEach_keeps (fun later => later.plan? = lifecycle.plan?)
    (fun later snapshot disk kept => (later.plan?_write step snapshot disk).trans kept) rfl disk
    snapshots

theorem rewind_fst (outputter : Outputter) (disk : Disk) :
    (outputter.rewind disk).2.1 = { outputter with lifecycle := .idle } := by
  have idle := outputter.lifecycle.rewind_fst disk
  rw [rewind]
  exact congrArg (fun lifecycle => { outputter with lifecycle }) idle

end Operations

/-! ## The invariant of outputters -/

/-- An outputter after events in their order. -/
def afterEvents (outputter : Outputter) (events : List Event) : Outputter :=
  events.foldl (fun outputter event => (event.operation.apply (outputter, event.disk)).1) outputter

theorem afterEvents_append (outputter : Outputter) (first second : List Event) :
    outputter.afterEvents (first ++ second) =
      (outputter.afterEvents first).afterEvents second := by
  rw [afterEvents, List.foldl_append]
  rfl

/-- What holds of an outputter, whatever happened to it. -/
structure IsSound (outputter : Outputter) : Prop where
  /-- The configuration can be used. -/
  valid : outputter.config.validate = .ok ()
  /-- The path could become a new file on the disk on which it was set. -/
  accepted : ∃ disk : Disk, disk.validateTarget outputter.config.path = .ok ()
  /-- The standard fields are what they are from the beginning on. -/
  registry : outputter.registry = .default
  /-- The files of the open run are those that the path gives. -/
  derived : ∀ layout destinations, outputter.lifecycle.plan? = some (layout, destinations) →
    destinations = .derive outputter.config.path layout.uncertain
  /-- Every file of the open run has its writer. -/
  lifecycle : outputter.lifecycle.IsSound

/-- A new outputter has no run. -/
theorem isSound_of_build {options : OutputOptions} {disk : Disk} {outputter : Outputter}
    (made : build options disk = .ok outputter) :
    outputter.IsSound ∧ outputter.lifecycle = .idle := by
  unfold build at made
  split at made
  · cases made
  · next path chosen =>
      obtain ⟨created, first, same⟩ := Error.bind_eq_ok_iff.1 made
      cases same
      obtain ⟨_, valid, first⟩ := Error.bind_eq_ok_iff.1 first
      obtain ⟨_, accepted, same⟩ := Error.bind_eq_ok_iff.1 first
      cases same
      exact ⟨⟨valid, ⟨disk, accepted⟩, rfl, fun _ _ planned => (by cases planned),
        Lifecycle.isSound_idle⟩, rfl⟩

section Sound

variable {outputter : Outputter} (sound : outputter.IsSound)

include sound

/-- With the same plan and a sound lifecycle the run may be a later state of itself. -/
theorem isSound_of_plan? {lifecycle : Lifecycle} (later : lifecycle.IsSound)
    (plan : lifecycle.plan? = outputter.lifecycle.plan?) :
    { outputter with lifecycle }.IsSound :=
  ⟨sound.valid, sound.accepted, sound.registry,
    fun layout destinations planned => sound.derived layout destinations (plan ▸ planned), later⟩

theorem isSound_set (change : Change) (disk : Disk) : (outputter.set change disk).2.IsSound := by
  cases ran : outputter.set change disk with
  | mk result next =>
    cases result with
    | error e =>
      rw [set_eq_error ran]
      exact sound
    | ok =>
      obtain ⟨closed, checked, usable, rfl⟩ := set_eq_ok sound.valid ran
      -- Without a run there are no files that the new path would have to give.
      have none := Lifecycle.plan?_eq_none closed
      refine ⟨usable, ?_, sound.registry, fun layout destinations planned => ?_, sound.lifecycle⟩
      · cases change with
        | path value => exact ⟨disk, checked⟩
        | allData _ | compress _ | format _ | codec _ | globalAttributes _ => exact sound.accepted
      · rw [none] at planned
        cases planned

theorem isSound_prepare (parameters : RunParameters) (created : Timestamp) (disk : Disk) :
    (outputter.prepare parameters created disk).2.1.IsSound := by
  cases ran : outputter.prepare parameters created disk with
  | mk result rest =>
    obtain ⟨next, after⟩ := rest
    cases result with
    | error e =>
      have refused := prepare_of_error (congrArg Prod.fst ran)
      rw [ran] at refused
      rw [refused]
      exact sound
    | ok destinations =>
      obtain ⟨-, layout, lifecycle, -, derived, begun, rfl⟩ := prepare_eq_ok ran
      have own := Lifecycle.isSound_begin sound.lifecycle destinations layout outputter.globals
        created outputter.config.format outputter.config.policy disk
      rw [begun] at own
      refine ⟨sound.valid, sound.accepted, sound.registry, fun other paths planned => ?_, own⟩
      rw [Lifecycle.plan?_of_begin begun] at planned
      cases planned
      exact derived

theorem isSound_write (step : UInt32) (snapshot : Snapshot) (disk : Disk) :
    (outputter.write step snapshot disk).2.1.IsSound := by
  rw [write_snd]
  exact isSound_of_plan? sound (Lifecycle.isSound_write sound.lifecycle step snapshot disk)
    (outputter.lifecycle.plan?_write step snapshot disk)

theorem isSound_writeOutput (step : UInt32) (source : SnapshotSource) (disk : Disk) :
    (outputter.writeOutput step source disk).2.1.IsSound := by
  have later := writeEach_keeps Lifecycle.IsSound
    (fun _ snapshot disk kept => Lifecycle.isSound_write kept step snapshot disk)
    sound.lifecycle disk ((source step).toOption.getD [])
  rw [writeOutput_snd]
  exact isSound_of_plan? sound later (plan?_writeEach outputter.lifecycle step disk _)

theorem isSound_rewind (disk : Disk) : (outputter.rewind disk).2.1.IsSound := by
  rw [rewind_fst]
  exact ⟨sound.valid, sound.accepted, sound.registry, fun _ _ planned => (by cases planned),
    Lifecycle.isSound_idle⟩

/-- One operation keeps the invariant, whatever disk it meets. -/
theorem isSound_apply (operation : Operation) (disk : Disk) :
    (operation.apply (outputter, disk)).1.IsSound := by
  cases operation with
  | set change => exact isSound_set sound change disk
  | prepare parameters created => exact isSound_prepare sound parameters created disk
  | write step snapshot => exact isSound_write sound step snapshot disk
  | writeOutput step source => exact isSound_writeOutput sound step source disk
  | rewind => exact isSound_rewind sound disk

/-- So do all operations that an outputter meets. -/
theorem isSound_afterEvents (events : List Event) : (outputter.afterEvents events).IsSound := by
  induction events generalizing outputter with
  | nil => exact sound
  | cons event events ih => exact ih (isSound_apply sound event.operation event.disk)

end Sound

end Outputter

end RaggedTrajectory
