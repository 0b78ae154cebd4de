import RaggedTrajectory.Outputter
import RaggedTrajectory.Proofs.Lifecycle.Files

/-!
# What an outputter leaves on a disk

Whatever is asked of an outputter, one operation after the other, the disk shows what it showed in
the beginning, and the files of the open run. These are the ones that the path of the configuration
and the layout of the run give: the primary file and, if it is asked for, its twin. Without a run
the disk shows what it showed in the beginning, however many runs there were, and however many could
not be begun.

* `Outputter.isTidy_apply`: one operation keeps the invariant.
* `Outputter.isTidy_afterAll`: so does a row of operations.
* `Outputter.showsBesides_of_operations`: what the disk shows.
-/

namespace RaggedTrajectory

/-! ## Operations -/

/-- What can be asked of an outputter. -/
inductive Operation where
  | set (change : Change)
  | prepare (parameters : RunParameters) (created : Timestamp)
  | write (step : UInt32) (snapshot : Snapshot)
  | writeOutput (step : UInt32) (source : SnapshotSource)
  | rewind

/-- An outputter and its disk after an operation, whatever the result is. -/
def Operation.apply (state : Outputter × Disk) : Operation → Outputter × Disk
  | set change => ((state.1.set change state.2).2, state.2)
  | prepare parameters created => (state.1.prepare parameters created state.2).2
  | write step snapshot => (state.1.write step snapshot state.2).2
  | writeOutput step source => (state.1.writeOutput step source state.2).2
  | rewind => (state.1.rewind state.2).2

/-- An outputter and its disk after operations in their order. -/
def Outputter.afterAll (operations : List Operation) (state : Outputter × Disk) :
    Outputter × Disk :=
  operations.foldl Operation.apply state

/-! ## The run that is open -/

namespace Lifecycle

/-- Layout and destinations of the open run. -/
def plan? (lifecycle : Lifecycle) : Option (RunLayout × Destinations) :=
  lifecycle.run.map fun run => (run.layout, run.destinations)

/-- A run that could not be begun leaves the lifecycle as it was. -/
theorem begin_of_error {lifecycle : Lifecycle} {destinations : Destinations} {layout : RunLayout}
    {globals : GlobalAttributes} {created : Timestamp} {format : FileFormat}
    {policy : CompressionPolicy} {disk after : Disk} {next : Lifecycle} {e : Error}
    (refused : lifecycle.begin destinations layout globals created format policy disk =
      (.error e, next, after)) : next = lifecycle := by
  unfold begin at refused
  split at refused
  · cases refused
    rfl
  · split at refused
    · cases refused
      rfl
    · dsimp only at refused
      split at refused <;> cases refused
      rfl

/-- A run that was begun has the given layout and destinations. -/
theorem plan?_of_begin {lifecycle : Lifecycle} {destinations : Destinations} {layout : RunLayout}
    {globals : GlobalAttributes} {created : Timestamp} {format : FileFormat}
    {policy : CompressionPolicy} {disk after : Disk} {next : Lifecycle}
    (begun : lifecycle.begin destinations layout globals created format policy disk =
      (.ok (), next, after)) : next.plan? = some (layout, destinations) := by
  unfold begin at begun
  split at begun
  · cases begun
  · split at begun
    · cases begun
    · dsimp only at begun
      split at begun <;> cases begun
      rfl

/-- A call keeps layout and destinations of the run. -/
theorem plan?_write (lifecycle : Lifecycle) (step : UInt32) (snapshot : Snapshot) (disk : Disk) :
    (lifecycle.write step snapshot disk).2.1.plan? = lifecycle.plan? := by
  unfold write
  split
  · rfl
  · next run opened =>
      rw [plan?, plan?, opened]
      rfl

end Lifecycle

/-! ## The invariant of outputters -/

namespace Outputter

/-- The disk has the files of the open run more than in the beginning, and these are the files that
the configuration and the layout of the run give. -/
structure IsTidy (outputter : Outputter) (initial disk : Disk) : Prop where
  files : outputter.lifecycle.IsTidy initial disk
  derived : ∀ layout destinations, outputter.lifecycle.plan? = some (layout, destinations) →
    destinations = .derive outputter.config.path layout.uncertain

/-- A call changes the lifecycle and the disk, whatever the receipt is. -/
theorem write_snd (outputter : Outputter) (step : UInt32) (snapshot : Snapshot) (disk : Disk) :
    (outputter.write step snapshot disk).2 =
      ({ outputter with lifecycle := (outputter.lifecycle.write step snapshot disk).2.1 },
        (outputter.lifecycle.write step snapshot disk).2.2) := by
  unfold write
  split
  · next refused => rw [refused]
  · next wrote =>
      rw [wrote]
      dsimp only
      split <;> rfl

section Tidy

variable {outputter : Outputter} {initial disk : Disk} (tidy : outputter.IsTidy initial disk)

include tidy

/-- With the same layout and destinations, only the disk matters. -/
theorem isTidy_of_plan? {lifecycle : Lifecycle} {after : Disk}
    (files : lifecycle.IsTidy initial after) (plan : lifecycle.plan? = outputter.lifecycle.plan?) :
    { outputter with lifecycle }.IsTidy initial after :=
  ⟨files, fun layout destinations planned => tidy.derived layout destinations (plan ▸ planned)⟩

theorem isTidy_set (change : Change) : (outputter.set change disk).2.IsTidy initial disk := by
  unfold set
  split
  · exact tidy
  · next closed =>
      -- Without a run nothing has to fit the new configuration.
      have none : outputter.lifecycle.run = none := Option.not_isSome_iff_eq_none.1 closed
      have vacuous : ∀ path layout destinations,
          outputter.lifecycle.plan? = some (layout, destinations) →
            destinations = .derive path layout.uncertain := by
        intro path layout destinations planned
        rw [Lifecycle.plan?, none] at planned
        cases planned
      split
      · exact ⟨tidy.files, vacuous _⟩
      · dsimp only
        split
        · exact tidy
        · exact ⟨tidy.files, vacuous _⟩

theorem isTidy_prepare (parameters : RunParameters) (created : Timestamp) :
    (outputter.prepare parameters created disk).2.1.IsTidy initial
      (outputter.prepare parameters created disk).2.2 := by
  unfold prepare
  dsimp only
  split
  · exact tidy
  · split
    · exact tidy
    · next layout planned =>
        have begun := Lifecycle.isTidy_begin tidy.files
          (.derive outputter.config.path layout.uncertain) layout outputter.globals created
          outputter.config.format outputter.config.policy
        split
        · next e lifecycle after refused =>
            rw [refused] at begun
            exact isTidy_of_plan? tidy begun (Lifecycle.begin_of_error refused ▸ rfl)
        · next lifecycle after made =>
            rw [made] at begun
            refine ⟨begun, fun layout destinations planned => ?_⟩
            rw [Lifecycle.plan?_of_begin made] at planned
            cases planned
            rfl

theorem isTidy_write (step : UInt32) (snapshot : Snapshot) :
    (outputter.write step snapshot disk).2.1.IsTidy initial
      (outputter.write step snapshot disk).2.2 := by
  have files := Lifecycle.isTidy_write tidy.files step snapshot
  have plan := outputter.lifecycle.plan?_write step snapshot disk
  rw [write_snd]
  exact isTidy_of_plan? tidy files plan

omit tidy in
/-- Snapshots that are written one after another, up to the first that fails. -/
theorem isTidy_writeEach {lifecycle : Lifecycle} (tidy : lifecycle.IsTidy initial disk)
    (step : UInt32) (snapshots : List Snapshot) :
    (writeEach lifecycle step disk snapshots).2.1.IsTidy initial
        (writeEach lifecycle step disk snapshots).2.2 ∧
      (writeEach lifecycle step disk snapshots).2.1.plan? = lifecycle.plan? := by
  induction snapshots generalizing lifecycle disk with
  | nil => exact ⟨tidy, rfl⟩
  | cons snapshot snapshots ih =>
    have files := Lifecycle.isTidy_write tidy step snapshot
    have plan := lifecycle.plan?_write step snapshot disk
    unfold writeEach
    split
    · next e next after refused =>
        rw [refused] at files plan
        exact ⟨files, plan⟩
    · next range next after wrote =>
        rw [wrote] at files plan
        obtain ⟨others, same⟩ := ih files
        exact ⟨others, same.trans plan⟩

theorem isTidy_writeOutput (step : UInt32) (source : SnapshotSource) :
    (outputter.writeOutput step source disk).2.1.IsTidy initial
      (outputter.writeOutput step source disk).2.2 := by
  unfold writeOutput
  split
  · exact tidy
  · split
    · exact tidy
    · exact tidy
    · next first rest found =>
        obtain ⟨files, plan⟩ := isTidy_writeEach tidy.files step (first :: rest)
        split <;> next ran =>
          rw [ran] at files plan
          exact isTidy_of_plan? tidy files plan

/-- The files of a run can always be removed. -/
theorem rewind_eq_ok : (outputter.rewind disk).1 = .ok () := by
  obtain ⟨after, rewound, -⟩ := Lifecycle.rewind_of_isTidy tidy.files
  rw [rewind, rewound]

theorem isTidy_rewind :
    (outputter.rewind disk).2.1.IsTidy initial (outputter.rewind disk).2.2 := by
  obtain ⟨after, rewound, clean⟩ := Lifecycle.rewind_of_isTidy tidy.files
  rw [rewind, rewound]
  exact ⟨clean, fun layout destinations planned => by cases planned⟩

/-- One operation keeps the invariant. -/
theorem isTidy_apply (operation : Operation) :
    (operation.apply (outputter, disk)).1.IsTidy initial (operation.apply (outputter, disk)).2 := by
  cases operation with
  | set change => exact isTidy_set tidy change
  | prepare parameters created => exact isTidy_prepare tidy parameters created
  | write step snapshot => exact isTidy_write tidy step snapshot
  | writeOutput step source => exact isTidy_writeOutput tidy step source
  | rewind => exact isTidy_rewind tidy

/-- So does a row of operations. -/
theorem isTidy_afterAll (operations : List Operation) :
    (afterAll operations (outputter, disk)).1.IsTidy initial
      (afterAll operations (outputter, disk)).2 := by
  induction operations generalizing outputter disk with
  | nil => exact tidy
  | cons operation operations ih => exact ih (isTidy_apply tidy operation)

/-- Without a run nothing else is seen than in the beginning. -/
theorem seen?_of_idle (numbered : initial.IsNumbered) (idle : outputter.lifecycle.run = none)
    (location : Location) : disk.seen? location = initial.seen? location := by
  have files := tidy.files
  rw [Lifecycle.IsTidy, idle] at files
  exact Disk.seen?_of_gains numbered files List.not_mem_nil

omit tidy in
/-- A run that could not be prepared leaves the outputter as it was. -/
theorem prepare_of_error {parameters : RunParameters} {created : Timestamp} {e : Error}
    (refused : (outputter.prepare parameters created disk).1 = .error e) :
    (outputter.prepare parameters created disk).2.1 = outputter := by
  unfold prepare at refused ⊢
  dsimp only at refused ⊢
  split
  · rfl
  · next closed =>
      rw [if_neg closed] at refused
      split
      · rfl
      · next layout planned =>
          rw [planned] at refused
          dsimp only at refused
          split
          · next begun => rw [Lifecycle.begin_of_error begun]
          · next begun =>
              rw [begun] at refused
              cases refused

/-- And it leaves no file behind. -/
theorem seen?_prepare_of_error (numbered : initial.IsNumbered) {parameters : RunParameters}
    {created : Timestamp} {e : Error}
    (refused : (outputter.prepare parameters created disk).1 = .error e) (location : Location) :
    (outputter.prepare parameters created disk).2.2.seen? location = disk.seen? location := by
  have after := isTidy_prepare tidy parameters created
  rw [prepare_of_error refused] at after
  cases opened : outputter.lifecycle.run with
  | none =>
    rw [seen?_of_idle after numbered opened, seen?_of_idle tidy numbered opened]
  | some run =>
    -- During a run nothing is prepared at all.
    have busy : outputter.lifecycle.isOpen = true := by
      rw [Lifecycle.isOpen, opened]
      rfl
    rw [prepare, if_pos busy]

end Tidy

/-- Whatever is asked of an outputter, and whatever comes of it, the disk shows what it showed in
the beginning, and the files of the open run, which are the primary one and, for an uncertain run,
its twin. Without a run it shows what it showed in the beginning. A run that cannot be prepared
leaves no file behind, and a run can always be rewound. No request is refused by the disk for other
reasons than what stands in the way of a new file. -/
theorem showsBesides_of_operations {initial disk : Disk} {outputter result : Outputter}
    (reliable : initial.IsReliable) (numbered : initial.IsNumbered)
    (idle : outputter.lifecycle.run = none) {operations : List Operation}
    (ran : afterAll operations (outputter, initial) = (result, disk)) :
    (result.lifecycle.run = none → ∀ location,
      disk.seen? location = initial.seen? location) ∧
    (∀ run, result.lifecycle.run = some run →
      run.destinations = .derive result.config.path run.layout.uncertain ∧
      initial.ShowsBesides run.destinations.paths disk) ∧
    (∀ parameters created e, (result.prepare parameters created disk).1 = .error e →
      (result.prepare parameters created disk).2.1 = result ∧ ∀ location,
        (result.prepare parameters created disk).2.2.seen? location = disk.seen? location) ∧
    (result.rewind disk).1 = .ok () := by
  have begins : outputter.IsTidy initial initial := by
    refine ⟨?_, fun layout destinations planned => ?_⟩
    · rw [Lifecycle.IsTidy, idle]
      exact Disk.gains_refl reliable
    · rw [Lifecycle.plan?, idle] at planned
      cases planned
  have tidy := isTidy_afterAll begins operations
  rw [ran] at tidy
  refine ⟨fun closed => seen?_of_idle tidy numbered closed, fun run opened => ⟨?_, ?_⟩,
    fun parameters created e refused =>
      ⟨prepare_of_error refused, seen?_prepare_of_error tidy numbered refused⟩,
    rewind_eq_ok tidy⟩
  · refine tidy.derived run.layout run.destinations ?_
    rw [Lifecycle.plan?, opened]
    rfl
  · have files := tidy.files
    rw [Lifecycle.IsTidy, opened] at files
    obtain ⟨files, gains, owns⟩ := files
    exact Disk.showsBesides_of_gains numbered gains owns.lead

end Outputter

/-! ## A twin that cannot be made -/

namespace BlockedTwin

/-- A file, and a link that leads nowhere at the place of a twin. -/
def disk : Disk :=
  ((Disk.ofDirectories [] []).addFile ["old"] [1, 2, 3]).put ["run_uncertain"] (.link "nowhere")

def outputter : Outputter := ⟨⟨SmallRun.path, false, false, .classic, .stored⟩, {}, .default, .idle⟩

def parameters (uncertain : Bool) : RunParameters := ⟨some SmallRun.time, some 3, uncertain, none⟩

def twin : Path := ⟨"run_uncertain"⟩

theorem derive_eq : Destinations.derive SmallRun.path true = ⟨SmallRun.path, some twin⟩ := by
  decide +kernel

theorem reliable : disk.IsReliable := fun outage mem => by cases mem

theorem isNumbered_disk : disk.IsNumbered :=
  Disk.isNumbered_put
    (Disk.isNumbered_addFile (Disk.isNumbered_ofDirectories [] []) (by decide) [1, 2, 3])
    (by decide) fun id same => by cases same

theorem checkPath_twin : Disk.checkPath twin = .ok () :=
  Disk.checkPath_eq_ok_iff.2 ⟨by simp [twin], by decide +kernel, by decide +kernel⟩

theorem findVacant_path : disk.afterRequest.findVacant SmallRun.path = .ok ["run"] :=
  Disk.findVacant_eq_ok_iff.2 ⟨[], "run", disk.findLast_of_bare SmallRun.checkPath_path
    (by decide +kernel) (by decide +kernel) (by decide), by decide +kernel, by decide +kernel,
    rfl, rfl⟩

/-- The link is in the way of a file, wherever it leads. -/
theorem findVacant_twin {disk : Disk} (root : disk.workingDirectory = [])
    (there : disk.node? ["run_uncertain"] = some (.link "nowhere")) :
    disk.findVacant twin = .error .alreadyExists := by
  have found : disk.findLast twin =
      .ok (Disk.start disk.workingDirectory twin.text, some "run_uncertain") :=
    disk.findLast_of_bare checkPath_twin (by decide +kernel) (by decide +kernel) (by decide)
  have origin : Disk.start disk.workingDirectory twin.text = [] := by
    rw [root]
    decide +kernel
  have bare : Disk.endsInSlash twin = false := by decide +kernel
  have short : ¬Disk.maxNameLength < "run_uncertain".utf8ByteSize := by decide +kernel
  simp [Disk.findVacant, found, origin, bare, short, there, bind, Except.bind]
  rfl

theorem isDirectory_here : disk.isDirectory ⟨"."⟩ = true := by
  have allowed : Disk.checkPath ⟨"."⟩ = .ok () :=
    Disk.checkPath_eq_ok_iff.2 ⟨by simp, by decide +kernel, by decide +kernel⟩
  have steps : Disk.steps "." = ["."] := by decide +kernel
  simp [Disk.isDirectory, Disk.lookup?, Disk.find, allowed, steps, Disk.walk, bind, Except.bind]

/-- Nothing is found at the primary path, and nothing where the link leads. -/
theorem validateTarget_path : disk.validateTarget SmallRun.path = .ok () := by
  have steps : Disk.steps SmallRun.path.text = ["run"] := by decide +kernel
  have origin : Disk.start disk.workingDirectory SmallRun.path.text = [] := by decide +kernel
  have short : ¬Disk.maxNameLength < "run".utf8ByteSize := by decide +kernel
  have vacant : disk.node? ["run"] = none := rfl
  have here : SmallRun.path.directory = ⟨"."⟩ := by decide +kernel
  refine Disk.validateTarget_ok_iff.2 ⟨?_, by decide +kernel, here ▸ isDirectory_here⟩
  simp [Disk.holds, Disk.lookup?, Disk.find, SmallRun.checkPath_path, steps, origin, Disk.walk,
    short, vacant, bind, Except.bind]

theorem validateTarget_twin : disk.validateTarget twin = .ok () := by
  have steps : Disk.steps twin.text = ["run_uncertain"] := by decide +kernel
  have origin : Disk.start disk.workingDirectory twin.text = [] := by decide +kernel
  have short : ¬Disk.maxNameLength < "run_uncertain".utf8ByteSize := by decide +kernel
  have there : disk.node? ["run_uncertain"] = some (.link "nowhere") := rfl
  have target : Disk.steps "nowhere" = ["nowhere"] := by decide +kernel
  have behind : Disk.start [] "nowhere" = [] := by decide +kernel
  have fits : ¬Disk.maxNameLength < "nowhere".utf8ByteSize := by decide +kernel
  have vacant : disk.node? ["nowhere"] = none := rfl
  have here : twin.directory = ⟨"."⟩ := by decide +kernel
  refine Disk.validateTarget_ok_iff.2 ⟨?_, by decide +kernel, here ▸ isDirectory_here⟩
  simp [Disk.holds, Disk.lookup?, Disk.find, checkPath_twin, steps, origin, Disk.walk, short,
    there, Disk.maxLinks, target, behind, fits, vacant, bind, Except.bind]

def layout (uncertain : Bool) : RunLayout := { SmallRun.layout with uncertain }

def schema (uncertain : Bool) : FileSchema := (layout uncertain).fileSchema {} SmallRun.time

def after (uncertain : Bool) : Disk :=
  TrajectoryFile.diskAfterCreate disk ["run"]
    (TrajectoryFile.newImage (schema uncertain) .classic .stored 3)

theorem create_path (uncertain : Bool) : ∃ writer,
    (Writer.create SmallRun.path .base (layout uncertain) (schema uncertain) .classic
      (.ofCodec .stored)).on disk = (.ok writer, after uncertain) := by
  rw [Writer.create, Action.on_bind_ok (TrajectoryFile.create_on reliable findVacant_path _ _ _ _)]
  exact ⟨_, rfl⟩

theorem create_twin : ∃ last,
    (Writer.create twin .uncertain (layout true) (schema true) .classic (.ofCodec .stored)).on
      (after true) = (.error (.refused .alreadyExists), last) := by
  have reliable : (after true).IsReliable := fun outage mem => by cases mem
  have vacant : (after true).afterRequest.findVacant twin = .error .alreadyExists :=
    findVacant_twin rfl rfl
  have refused := Disk.create_on_error reliable vacant
  rw [Writer.create, TrajectoryFile.create_eq]
  exact ⟨_, Action.on_bind_error (Action.on_bind_error refused)⟩

/-- A run with a twin is not begun: its primary file is made, its twin is not. -/
theorem begin_uncertain : ∃ last,
    Lifecycle.idle.begin (.derive SmallRun.path true) (layout true) {} SmallRun.time .classic
      (.ofCodec .stored) disk = (.error (.refused .alreadyExists), .idle, last) := by
  have targets : Lifecycle.validateTargets disk (.derive SmallRun.path true) = .ok () := by
    rw [derive_eq]
    simp [Lifecycle.validateTargets, Destinations.paths, validateTarget_path, validateTarget_twin,
      bind, Except.bind, pure, Except.pure]
  obtain ⟨writer, made⟩ := create_path true
  obtain ⟨last, refused⟩ := create_twin
  have writers : (Lifecycle.createWriters (layout true) (schema true) .classic (.ofCodec .stored)
      [] (Destinations.entries ⟨SmallRun.path, some twin⟩)).on disk =
        (.error (.refused .alreadyExists),
          ((Disk.removeFiles ([writer].map fun writer => writer.file.path)).on last).2) := by
    rw [Destinations.entries, Lifecycle.createWriters_cons_on, made, Option.toList_some,
      List.map_singleton]
    simp only [List.nil_append, Lifecycle.createWriters_cons_on, refused]
  rw [Lifecycle.begin, if_neg (by decide), targets, derive_eq]
  rw [schema] at writers
  simp only [writers]
  exact ⟨_, rfl⟩

theorem begin_plain : ∃ run last,
    Lifecycle.idle.begin (.derive SmallRun.path false) (layout false) {} SmallRun.time .classic
      (.ofCodec .stored) disk = (.ok (), ⟨some run⟩, last) := by
  have targets : Lifecycle.validateTargets disk (.derive SmallRun.path false) = .ok () := by
    simp [Lifecycle.validateTargets, Destinations.derive, Destinations.paths,
      validateTarget_path, bind, Except.bind, pure, Except.pure]
  obtain ⟨writer, made⟩ := create_path false
  have writers : (Lifecycle.createWriters (layout false) (schema false) .classic
      (.ofCodec .stored) [] (Destinations.derive SmallRun.path false).entries).on disk =
        (.ok [writer], after false) := by
    rw [Destinations.derive, Destinations.entries, Lifecycle.createWriters_cons_on, made]
    rfl
  rw [Lifecycle.begin, if_neg (by decide), targets]
  rw [schema] at writers
  simp only [writers]
  exact ⟨_, _, rfl⟩

/-- What preparing comes to, as the planned layouts and the settings are what they are. -/
theorem prepare_eq (uncertain : Bool) {result : Except Error Unit} {lifecycle : Lifecycle}
    {last : Disk}
    (begun : Lifecycle.idle.begin (.derive SmallRun.path uncertain) (layout uncertain) {}
      SmallRun.time .classic (.ofCodec .stored) disk = (result, lifecycle, last)) :
    outputter.prepare (parameters uncertain) SmallRun.time disk =
      (result.map fun _ => .derive SmallRun.path uncertain, { outputter with lifecycle },
        last) := by
  have planned : outputter.registry.plan (parameters uncertain) outputter.config.allData =
    .ok (layout uncertain) := rfl
  have own : outputter.lifecycle.begin (.derive outputter.config.path (layout uncertain).uncertain)
      (layout uncertain) outputter.globals SmallRun.time outputter.config.format
      outputter.config.policy disk = (result, lifecycle, last) := begun
  have idle : ¬outputter.lifecycle.isOpen = true := by decide
  simp only [Outputter.prepare, if_neg idle, planned, own]
  cases result <;> rfl

end BlockedTwin

/-- A run whose twin meets a link that leads nowhere leaves no file behind. A run without a twin has
its primary file in the place that was found for it. -/
theorem Outputter.showsBesides_blockedTwin :
    (∃ last, afterAll [.prepare (BlockedTwin.parameters true) SmallRun.time]
        (BlockedTwin.outputter, BlockedTwin.disk) = (BlockedTwin.outputter, last) ∧
      ∀ location, last.seen? location = BlockedTwin.disk.seen? location) ∧
    ∃ result last run, afterAll
        [.prepare (BlockedTwin.parameters false) SmallRun.time, .write 1 SmallRun.pair]
        (BlockedTwin.outputter, BlockedTwin.disk) = (result, last) ∧
      result.lifecycle.run = some run ∧ run.destinations = .derive SmallRun.path false ∧
      BlockedTwin.disk.ShowsBesides run.destinations.paths last := by
  constructor
  · obtain ⟨last, begun⟩ := BlockedTwin.begin_uncertain
    have refused : afterAll [.prepare (BlockedTwin.parameters true) SmallRun.time]
        (BlockedTwin.outputter, BlockedTwin.disk) = (BlockedTwin.outputter, last) :=
      congrArg Prod.snd (BlockedTwin.prepare_eq true begun)
    have shows := showsBesides_of_operations BlockedTwin.reliable BlockedTwin.isNumbered_disk rfl
      refused
    exact ⟨last, refused, shows.1 rfl⟩
  · obtain ⟨run, last, begun⟩ := BlockedTwin.begin_plain
    have prepared := congrArg Prod.snd (BlockedTwin.prepare_eq false begun)
    have written : afterAll
        [.prepare (BlockedTwin.parameters false) SmallRun.time, .write 1 SmallRun.pair]
        (BlockedTwin.outputter, BlockedTwin.disk) =
          (Outputter.write { BlockedTwin.outputter with lifecycle := ⟨some run⟩ } 1 SmallRun.pair
            last).2 :=
      congrArg (Operation.apply · (.write 1 SmallRun.pair)) prepared
    rw [write_snd] at written
    have shows := showsBesides_of_operations BlockedTwin.reliable BlockedTwin.isNumbered_disk rfl
      written
    have plan := (Lifecycle.plan?_write ⟨some run⟩ 1 SmallRun.pair last).trans
      (Lifecycle.plan?_of_begin begun)
    obtain ⟨run, opened, same⟩ := Option.map_eq_some_iff.1 plan
    exact ⟨_, _, run, written, opened, congrArg Prod.snd same, (shows.2.1 run opened).2⟩

end RaggedTrajectory
