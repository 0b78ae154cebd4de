import RaggedTrajectory.Proofs.Outputter.Batches

/-!
# Rewinding

To rewind is to forget the run and to remove its files. The run is forgotten whatever comes of the
removal, and nothing else is: the outputter is the one that its configuration and its global
attributes would give anew. The disk may be any, as others may have moved or replaced the files in
the meantime; each path is tried, and what it names is removed if it is a file or a link.

* `Outputter.rewind_eq`: the result of rewinding, in one equation.
* `Outputter.eq_of_build`: there is one new outputter for a configuration and global attributes.
* `Outputter.rewinds_of_events`: rewinding, whatever happened to an outputter and its disk.
-/

namespace RaggedTrajectory

namespace Outputter

/-- The paths of the files of the open run, the primary one first. -/
def runPaths (outputter : Outputter) : List Path :=
  match outputter.lifecycle.plan? with
  | none => []
  | some (_, destinations) => destinations.paths

/-- What rewinding does, on whatever disk. -/
theorem rewind_eq (outputter : Outputter) (disk : Disk) :
    outputter.rewind disk =
      (match (disk.removals outputter.runPaths).findSome? Disk.removalFault? with
        | none => .ok ()
        | some e => .error e,
      { outputter with lifecycle := .idle }, disk.afterRemovals outputter.runPaths) := by
  obtain ⟨config, globals, registry, ⟨_ | run⟩⟩ := outputter
  · -- Without a run there are no paths, and the outputter is without a run already.
    rfl
  · have removed := Disk.removeFiles_on run.destinations.paths disk
    simp only [rewind, Lifecycle.rewind, removed]
    rfl

/-- Without a run there is nothing to do. -/
theorem rewind_of_closed {outputter : Outputter} (closed : outputter.lifecycle.isOpen = false)
    (disk : Disk) : outputter.rewind disk = (.ok (), outputter, disk) := by
  obtain ⟨config, globals, registry, ⟨_ | run⟩⟩ := outputter
  · rfl
  · cases closed

/-- A new outputter is determined by its configuration and its global attributes. -/
theorem eq_of_build {options : OutputOptions} {disk : Disk} {outputter : Outputter}
    (made : build options disk = .ok outputter) :
    outputter = ⟨outputter.config, outputter.globals, .default, .idle⟩ := by
  obtain ⟨sound, idle⟩ := isSound_of_build made
  rw [← sound.registry, ← idle]

/-- The choices that a configuration and global attributes stand for. -/
def choices (outputter : Outputter) : OutputOptions where
  path := some outputter.config.path
  allData := outputter.config.allData
  compress := outputter.config.compress
  format := outputter.config.format
  codec := outputter.config.codec
  globals := outputter.globals

/-- An outputter without a run can be made anew, on some disk. -/
theorem exists_build {outputter : Outputter} (sound : outputter.IsSound)
    (idle : outputter.lifecycle = .idle) :
    ∃ disk, build outputter.choices disk = .ok outputter := by
  obtain ⟨disk, accepted⟩ := sound.accepted
  refine ⟨disk, ?_⟩
  -- The path was free on the disk on which it was set.
  have valid := sound.valid
  have registry := sound.registry
  obtain ⟨⟨path, allData, compress, format, codec⟩, globals, _, _⟩ := outputter
  subst idle registry
  simp only [build, choices, create, valid, accepted, Error.ok_bind]
  rfl

/-- What rewinding comes to. -/
structure Rewinds (outputter : Outputter) (disk : Disk) : Prop where
  /-- There is no run any more, whatever the result is. Nothing else of the outputter changes. -/
  ends : (outputter.rewind disk).2.1 = { outputter with lifecycle := .idle }
  /-- So there is no layout, and no destination and no number of records for any population. -/
  closed : (outputter.rewind disk).2.1.lifecycle.plan? = none ∧ ∀ population,
    (outputter.rewind disk).2.1.destination? population = none ∧
    (outputter.rewind disk).2.1.lifecycle.recordLength? population = none
  /-- The error is that of the first removal that failed, other than for a missing file. -/
  result : Error.of? (outputter.rewind disk).1 =
    (disk.removals outputter.runPaths).findSome? Disk.removalFault?
  /-- The path of every file is tried. -/
  tried : (outputter.rewind disk).2.2 = disk.afterRemovals outputter.runPaths
  /-- What the paths named is gone if it was a file or a link, and nothing else has changed. -/
  removed : disk.IsRemoved outputter.runPaths (outputter.rewind disk).2.2
  /-- Rewinding again does nothing, on this disk or any other. -/
  again : ∀ later, (outputter.rewind disk).2.1.rewind later =
    (.ok (), (outputter.rewind disk).2.1, later)
  /-- Nor does rewinding without a run. -/
  nothing : outputter.lifecycle.isOpen = false → outputter.rewind disk = (.ok (), outputter, disk)
  /-- There is a new outputter with the same configuration and global attributes, and every such
  outputter equals the one that was rewound, so that nothing that is done later tells them apart. -/
  fresh : (∃ options other, build options other = .ok (outputter.rewind disk).2.1) ∧
    ∀ options other made, build options other = .ok made → made.config = outputter.config →
      made.globals = outputter.globals → made = (outputter.rewind disk).2.1

theorem rewinds_of_isSound {outputter : Outputter} (sound : outputter.IsSound) (disk : Disk) :
    outputter.Rewinds disk where
  ends := outputter.rewind_fst disk
  closed := by
    rw [rewind_fst]
    exact ⟨rfl, fun population => ⟨rfl, rfl⟩⟩
  result := by
    rw [rewind_eq]
    cases (disk.removals outputter.runPaths).findSome? Disk.removalFault? <;> rfl
  tried := by rw [rewind_eq]
  removed := by
    rw [rewind_eq]
    exact disk.isRemoved_afterRemovals outputter.runPaths
  again := by
    have closed : (outputter.rewind disk).2.1.lifecycle.isOpen = false := by
      rw [rewind_fst]
      rfl
    exact rewind_of_closed closed
  nothing closed := rewind_of_closed closed disk
  fresh := by
    have later := isSound_rewind sound disk
    rw [rewind_fst] at later ⊢
    refine ⟨⟨_, exists_build later rfl⟩, fun options other made built config globals => ?_⟩
    -- The standard fields are the same for every outputter, so there is nothing else to compare.
    rw [eq_of_build built, config, globals, sound.registry]

/-- Whatever happened to an outputter, and whatever its disk is by now: to rewind ends the run,
removes its files as far as they can be removed, and leaves a new outputter. -/
theorem rewinds_of_events {options : OutputOptions} {initial : Disk} {start : Outputter}
    (made : build options initial = .ok start) (events : List Event) (disk : Disk) :
    (start.afterEvents events).Rewinds disk :=
  rewinds_of_isSound (isSound_afterEvents (isSound_of_build made).1 events) disk

end Outputter

/-! ## Files that were replaced -/

namespace TwinRun

/-- The disk of the run, with a directory in the place of the primary file, and a link in the place
of its twin. -/
def replaced : Disk := (start.put ["run"] .directory).put ["run_uncertain"] (.link "nowhere")

theorem findEntry_path : replaced.findEntry SmallRun.path = .error .isADirectory := by
  have found : replaced.findLast SmallRun.path = .ok ([], some "run") :=
    replaced.findLast_of_bare SmallRun.checkPath_path (by decide +kernel) (by decide +kernel)
      (by decide)
  have short : ¬Disk.maxNameLength < "run".utf8ByteSize := by decide +kernel
  have there : replaced.node? ["run"] = some .directory := rfl
  rw [Disk.findEntry, found]
  simp only [bind, Except.bind, if_neg short, List.nil_append, there]
  rfl

theorem findEntry_twin : replaced.findEntry twin = .ok ["run_uncertain"] :=
  Disk.findEntry_eq_ok_iff.2 ⟨[], "run_uncertain", replaced.findLast_of_bare checkPath_twin
    (by decide +kernel) (by decide +kernel) (by decide), by decide +kernel, by decide +kernel,
    ⟨.link "nowhere", rfl, by decide⟩, rfl⟩

theorem removals_eq : replaced.removals outputter.runPaths =
    [.error (.refused .isADirectory), .ok ()] := by
  have primary := Disk.remove_on_error findEntry_path
  have second := Disk.remove_on findEntry_twin
  show replaced.removals [SmallRun.path, twin] = _
  rw [Disk.removals, primary, Disk.removals, second]
  rfl

end TwinRun

/-- The directory cannot be removed, and this is the error; but the link is gone, and the outputter
is the new one. -/
theorem Outputter.rewinds_twinRun :
    Error.of? (TwinRun.outputter.rewind TwinRun.replaced).1 = some (.refused .isADirectory) ∧
      (TwinRun.outputter.rewind TwinRun.replaced).2.2.findEntry TwinRun.twin = .error .notFound ∧
      (TwinRun.outputter.rewind TwinRun.replaced).2.1 = BlockedTwin.outputter := by
  have rewinds := rewinds_of_events TwinRun.build_eq TwinRun.events TwinRun.replaced
  rw [TwinRun.afterEvents_eq] at rewinds
  refine ⟨?_, ?_, ?_⟩
  · rw [rewinds.result, TwinRun.removals_eq]
    rfl
  · exact (rewinds.removed.gone TwinRun.twin (by decide) _ TwinRun.findEntry_twin).1
  · exact (rewinds.fresh.2 _ _ _ TwinRun.build_eq rfl rfl).symm

end RaggedTrajectory
