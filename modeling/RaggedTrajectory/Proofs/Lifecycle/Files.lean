import RaggedTrajectory.Proofs.Disk.Tree
import RaggedTrajectory.Proofs.Lifecycle.Acceptance

/-!
# The files of a run

Between two runs a disk is what it was before the first one, and during a run it has the files of
the run more, and no other differences. A run that cannot be begun removes the files it made: a
target that was found to be free can still be refused, since a link that leads nowhere names nothing
and yet stands in the way.

* `TrajectoryFile.writesOnly_append`, `Writer.writesOnly_write`: a call changes one file alone.
* `Lifecycle.createWriters_of_gains`: making the files of a run, or none.
* `Lifecycle.isTidy_begin`, `isTidy_write`, `rewind_of_isTidy`: the invariant of lifecycles.
-/

namespace RaggedTrajectory

/-! ## Calls -/

/-- An append, whatever becomes of it, changes its own file alone, and stays with it. -/
theorem TrajectoryFile.writesOnly_append (file : TrajectoryFile) (record : StepRecord)
    (disk : Disk) :
    (file.append record disk).2.1.id = file.id ∧
      disk.WritesOnly file.id (file.append record disk).2.2 := by
  have step := Disk.writesOnly_bind (Disk.writesOnly_write · file.id (file.chunkWrite record))
    (fun _ disk => disk.writesOnly_write file.id (file.entryWrite record)) disk
  have header := Disk.writesOnly_bind (Disk.writesOnly_write · file.id (file.headerWrite record))
    (fun _ disk => disk.writesOnly_sync file.id)
  unfold append
  split
  · exact ⟨rfl, .refl disk file.id⟩
  · dsimp only
    split
    · next stopped =>
        rw [stopped] at step
        exact ⟨rfl, step⟩
    · next middle written =>
        -- The header is written to the disk that the chunk and the entry leave.
        rw [written] at step
        have rest := header middle
        split <;> next done =>
          rw [done] at rest
          exact ⟨rfl, step.trans rest⟩

namespace Writer

/-- A call, whatever becomes of it, changes the file of its writer alone. -/
theorem writesOnly_write (writer : Writer) (layout : RunLayout) (step : UInt32)
    (snapshot : Snapshot) (disk : Disk) :
    (writer.write layout step snapshot disk).2.1.file.id = writer.file.id ∧
      disk.WritesOnly writer.file.id (writer.write layout step snapshot disk).2.2 := by
  unfold write
  split
  · exact ⟨rfl, .refl disk writer.file.id⟩
  · next record made =>
      have appended := writer.file.writesOnly_append record disk
      split <;> next done =>
        rw [done] at appended
        exact appended

end Writer

namespace OpenRun

/-- A call changes the file of one writer, and every writer stays with its file. -/
theorem gains_writeWith {initial disk : Disk} {files : List (Location × FileId)}
    (gains : initial.Gains files disk) (layout : RunLayout) (step : UInt32) (snapshot : Snapshot)
    {writers : List Writer} (new : ∀ writer ∈ writers, initial.nextId ≤ writer.file.id) :
    (writeWith layout step snapshot disk writers).2.1.map (·.file.id) =
        writers.map (·.file.id) ∧
      initial.Gains files (writeWith layout step snapshot disk writers).2.2 := by
  induction writers with
  | nil => exact ⟨rfl, gains⟩
  | cons writer writers ih =>
    obtain ⟨first, others⟩ := List.forall_mem_cons.1 new
    obtain ⟨kept, rest⟩ := ih others
    rw [writeWith]
    split
    · obtain ⟨same, wrote⟩ := writer.writesOnly_write layout step snapshot disk
      exact ⟨by simp only [List.map_cons, same], Disk.gains_of_writesOnly gains first wrote⟩
    · exact ⟨by simp only [List.map_cons, kept], rest⟩

end OpenRun

/-! ## New files -/

namespace Writer

/-- A file cannot be made and nothing changes, or it is made where its path had nothing. -/
theorem create_of_gains {initial disk : Disk} {files : List (Location × FileId)}
    (gains : initial.Gains files disk) (path : Path) (population : Population) (layout : RunLayout)
    (schema : FileSchema) (format : FileFormat) (policy : CompressionPolicy) :
    (∃ e after, (create path population layout schema format policy).on disk = (.error e, after) ∧
      initial.Gains files after) ∨
    ∃ writer location after,
      (create path population layout schema format policy).on disk = (.ok writer, after) ∧
      writer.file.path = path ∧ initial.findVacant path = .ok location ∧
      initial.Gains (files ++ [(location, writer.file.id)]) after := by
  -- Looking up the outage of a request changes nothing that matters here.
  have asked : initial.Gains files disk.afterRequest :=
    Disk.gains_of_writesOnly gains gains.nextId (disk.writesOnly_afterRequest disk.nextId)
  cases vacant : disk.afterRequest.findVacant path with
  | error refusal =>
    have refused := Disk.create_on_error gains.reliable vacant
    refine .inl ⟨.refused refusal, disk.afterRequest, ?_, asked⟩
    rw [create, TrajectoryFile.create_eq]
    exact Action.on_bind_error (Action.on_bind_error refused)
  | ok location =>
    have made := TrajectoryFile.create_on gains.reliable vacant schema format policy.method
      layout.stepCount
    have added := Disk.gains_addFile asked (Disk.node?_of_findVacant vacant) []
    have wrote := Disk.writesOnly_afterWrite (disk.afterRequest.addFile location []) disk.nextId
      ⟨0, (TrajectoryFile.newImage schema format policy.method layout.stepCount).bytes⟩
    refine .inr ⟨_, location, _, by rw [create, Action.on_bind_ok made]; rfl, rfl, ?_,
      Disk.gains_of_writesOnly added gains.nextId
        (wrote.trans (Disk.writesOnly_afterRequest _ _))⟩
    refine Disk.findVacant_of_keepsWays (Disk.keepsWays_of_gains_symm asked)
      asked.workingDirectory.symm vacant ?_
    exact added.vacant (location, disk.nextId) (List.mem_append_right _ List.mem_cons_self)

end Writer

/-! ## Lifecycles -/

namespace OpenRun

/-- A run has files: its destinations lead to them, and its writers write to them. -/
structure Owns (run : OpenRun) (initial : Disk) (files : List (Location × FileId)) : Prop where
  lead : initial.LeadTo run.destinations.paths files
  numbers : run.writers.map (·.file.id) = files.map Prod.snd

end OpenRun

namespace Lifecycle

section Files

variable {initial disk : Disk}

/-- The files of a run are made for its destinations, or the first that cannot be made is the end,
and those before it are gone again. -/
theorem createWriters_of_gains {files : List (Location × FileId)}
    (gains : initial.Gains files disk) (layout : RunLayout) (schema : FileSchema)
    (format : FileFormat) (policy : CompressionPolicy) {made : List Writer}
    (lead : initial.LeadTo (made.map (·.file.path)) files)
    (numbers : made.map (·.file.id) = files.map Prod.snd) (entries : List (Population × Path)) :
    (∃ e after, (createWriters layout schema format policy made entries).on disk =
      (.error e, after) ∧ initial.Gains [] after) ∨
    ∃ writers all after, (createWriters layout schema format policy made entries).on disk =
      (.ok writers, after) ∧ initial.Gains all after ∧
      initial.LeadTo (made.map (·.file.path) ++ entries.map Prod.snd) all ∧
      writers.map (·.file.id) = all.map Prod.snd := by
  induction entries generalizing made files disk with
  | nil =>
    refine .inr ⟨made, files, disk, rfl, gains, ?_, numbers⟩
    rw [List.map_nil, List.append_nil]
    exact lead
  | cons entry entries ih =>
    obtain ⟨population, path⟩ := entry
    rw [createWriters_cons_on]
    rcases Writer.create_of_gains gains path population layout schema format policy with
      ⟨e, after, refused, kept⟩ | ⟨writer, location, after, created, own, vacant, more⟩
    · -- The files that were made before are removed by the paths they were made for.
      obtain ⟨last, removed, clean⟩ := Disk.gains_removeFiles kept lead
      rw [refused]
      exact .inl ⟨e, last, by simp only [removed], clean⟩
    · rw [created]
      have longer : initial.LeadTo ((made ++ [writer]).map (·.file.path))
          (files ++ [(location, writer.file.id)]) := by
        rw [Disk.LeadTo, List.map_append, List.map_append, List.map_append, lead]
        simp [own, vacant]
      have both : (made ++ [writer]).map (·.file.id) =
          (files ++ [(location, writer.file.id)]).map Prod.snd := by
        rw [List.map_append, List.map_append, numbers]
        rfl
      have rest := ih more longer both
      rw [List.map_append, List.append_assoc, List.map_singleton, own] at rest
      exact rest

end Files

/-- The disk has the files of the open run more than it had in the beginning. Without a run it has
what it had. -/
def IsTidy (initial : Disk) (lifecycle : Lifecycle) (disk : Disk) : Prop :=
  match lifecycle.run with
  | none => initial.Gains [] disk
  | some run => ∃ files, initial.Gains files disk ∧ run.Owns initial files

section IsTidy

variable {initial disk : Disk} {lifecycle : Lifecycle} (tidy : lifecycle.IsTidy initial disk)

include tidy

/-- A run is begun with its files, or it is not begun and leaves none. -/
theorem isTidy_begin (destinations : Destinations) (layout : RunLayout)
    (globals : GlobalAttributes) (created : Timestamp) (format : FileFormat)
    (policy : CompressionPolicy) :
    IsTidy initial (lifecycle.begin destinations layout globals created format policy disk).2.1
      (lifecycle.begin destinations layout globals created format policy disk).2.2 := by
  unfold begin
  split
  · exact tidy
  · next closed =>
      -- There was no run, so the disk was as in the beginning.
      have none : lifecycle.run = none := Option.not_isSome_iff_eq_none.1 closed
      have clean : initial.Gains [] disk := by
        rw [IsTidy, none] at tidy
        exact tidy
      have noPaths : initial.LeadTo (([] : List Writer).map (·.file.path)) [] := rfl
      split
      · exact tidy
      · rcases createWriters_of_gains clean layout (layout.fileSchema globals created) format
          policy noPaths rfl destinations.entries with
          ⟨e, after, refused, left⟩ | ⟨writers, files, after, made, gains, lead, numbers⟩
        · simp only [refused, IsTidy, none]
          exact left
        · simp only [made, IsTidy]
          rw [List.map_nil, List.nil_append, ← destinations.paths_eq_map_entries] at lead
          exact ⟨files, gains, lead, numbers⟩

/-- A call changes the files of the run alone. -/
theorem isTidy_write (step : UInt32) (snapshot : Snapshot) :
    IsTidy initial (lifecycle.write step snapshot disk).2.1
      (lifecycle.write step snapshot disk).2.2 := by
  unfold write
  split
  · exact tidy
  · next run opened =>
      rw [IsTidy, opened] at tidy
      obtain ⟨files, gains, lead, numbers⟩ := tidy
      -- The writers have the numbers of the files, and these are new.
      have new : ∀ writer ∈ run.writers, initial.nextId ≤ writer.file.id := by
        intro writer mem
        have number : writer.file.id ∈ files.map Prod.snd :=
          numbers ▸ List.mem_map_of_mem mem
        obtain ⟨file, inside, same⟩ := List.mem_map.1 number
        exact same ▸ gains.new file inside
      obtain ⟨kept, more⟩ := OpenRun.gains_writeWith gains run.layout step snapshot new
      exact ⟨files, more, lead, kept.trans numbers⟩

/-- A run that is rewound leaves nothing behind, and nothing can stand in the way. -/
theorem rewind_of_isTidy :
    ∃ after, lifecycle.rewind disk = (.ok (), idle, after) ∧ initial.Gains [] after := by
  unfold rewind
  split
  · next closed =>
      rw [IsTidy, closed] at tidy
      obtain ⟨run⟩ := lifecycle
      cases closed
      exact ⟨disk, rfl, tidy⟩
  · next run opened =>
      rw [IsTidy, opened] at tidy
      obtain ⟨files, gains, lead, -⟩ := tidy
      obtain ⟨after, removed, clean⟩ := Disk.gains_removeFiles gains lead
      exact ⟨after, by simp only [removed], clean⟩

end IsTidy

end Lifecycle

end RaggedTrajectory
