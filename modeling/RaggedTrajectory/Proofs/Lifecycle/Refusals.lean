import RaggedTrajectory.Proofs.Outputter.Files

/-!
# Runs that are not begun

On any disk, whatever requests it refuses, a run that cannot be begun removes the files that were
made for it before, and the lifecycle stays as it was. The file that was being made is not among
them. If its place was refused, there is none. But the refusal of a write or a sync comes when the
file is already there, and nobody removes it: the next run with the same destinations finds it in
its way.

* `Disk.validateTarget_congr`: what the check of a target depends on.
* `Disk.validateTarget_of_vacant`, `validateTarget_of_file`: a target before and after its file.
* `Writer.create_of_settled`: what making a file changes on any disk.
* `Lifecycle.createWriters_of_settled`: what is left when not all files of a run are made.
* `Lifecycle.keepsOutside_of_begin_error`: what is left of a run that is not begun.
* `Lifecycle.begin_fullDisk`: a run that is not begun and stands in its own way.
-/

namespace RaggedTrajectory

namespace Disk

/-! ## Trees that stand alike -/

section Congr

variable {disk other : Disk} (nodes : ∀ location, other.node? location = disk.node? location)

include nodes

/-- A walk depends on what stands at the places on its way. -/
theorem walk_congr (follow : Bool) (links : Nat) (here : Location) (names : List String) :
    other.walk follow links here names = disk.walk follow links here names := by
  -- The cases are those of the walk.
  fun_induction Disk.walk disk follow links here names with
  | case1 links here => rw [walk]
  | case2 links here rest ih => rw [walk, if_pos rfl, ih]
  | case3 links here rest up ih => rw [walk, if_neg up, if_pos rfl, ih]
  | case4 links here name rest dot up long => rw [walk, if_neg dot, if_neg up, if_pos long]
  | case5 links here name dot up short there =>
    rw [walk, if_neg dot, if_neg up, if_neg short, nodes, there]
    rfl
  | case6 links here name rest dot up short there more =>
    rw [walk, if_neg dot, if_neg up, if_neg short, nodes, there]
    exact if_neg more
  | case7 links here name rest dot up short there ih =>
    rw [walk, if_neg dot, if_neg up, if_neg short, nodes, there]
    exact ih
  | case8 links here name dot up short id there =>
    rw [walk, if_neg dot, if_neg up, if_neg short, nodes, there]
    rfl
  | case9 links here name rest dot up short id there more =>
    rw [walk, if_neg dot, if_neg up, if_neg short, nodes, there]
    exact if_neg more
  | case10 links here name rest dot up short target there last =>
    rw [walk, if_neg dot, if_neg up, if_neg short, nodes, there]
    exact if_pos last
  | case11 here name rest dot up short target there more =>
    rw [walk, if_neg dot, if_neg up, if_neg short, nodes, there]
    exact if_neg more
  | case12 here name rest dot up short target there more links ih =>
    rw [walk, if_neg dot, if_neg up, if_neg short, nodes, there]
    exact (if_neg more).trans ih

variable (same : other.workingDirectory = disk.workingDirectory)

include same

theorem lookup?_congr (path : Path) : other.lookup? path = disk.lookup? path := by
  simp only [lookup?, find, same, walk_congr nodes]

/-- So does the check of a target. -/
theorem validateTarget_congr (path : Path) :
    other.validateTarget path = disk.validateTarget path := by
  have directory : ∀ path, other.isDirectory path = disk.isDirectory path := fun path => by
    rw [isDirectory, lookup?_congr nodes same path, isDirectory]
  have holds : other.holds path = disk.holds path := by
    rw [Disk.holds, lookup?_congr nodes same path, Disk.holds]
  simp only [validateTarget, directory, holds]

/-- And the place of a new file. -/
theorem findVacant_congr (path : Path) : other.findVacant path = disk.findVacant path := by
  simp only [findVacant, findLast, same, walk_congr nodes, nodes]

end Congr

/-! ## Targets and their files -/

section Targets

variable {disk other : Disk} (keeps : disk.KeepsWays other)
  (same : other.workingDirectory = disk.workingDirectory) {path : Path} {location : Location}
  (vacant : disk.findVacant path = .ok location)

include keeps same vacant

/-- A target that was accepted is accepted again, as long as nothing is at its place. -/
theorem validateTarget_of_vacant (accepted : disk.validateTarget path = .ok ())
    (free : other.node? location = none) : other.validateTarget path = .ok () := by
  obtain ⟨-, named, parent⟩ := validateTarget_ok_iff.1 accepted
  refine validateTarget_ok_iff.2 ⟨?_, named, isDirectory_of_keepsWays keeps same parent⟩
  rw [holds, lookup?_of_findVacant keeps same vacant (.inl free), free]
  rfl

/-- When its file is there, it is not. -/
theorem validateTarget_of_file {id : FileId} (there : other.node? location = some (.file id)) :
    other.validateTarget path = .error (.invalidDestination path.text .alreadyExists) := by
  have found : other.lookup? path = some (.file id) :=
    (lookup?_of_findVacant keeps same vacant (.inr ⟨id, there⟩)).trans there
  have plain : other.isDirectory path = false := by
    rw [isDirectory, found]
    rfl
  have taken : other.holds path = true := by
    rw [holds, found]
    rfl
  rw [validateTarget, plain, taken]
  rfl

end Targets

/-! ## What is left -/

/-- A disk differs from the one before at most in what stands at some places, and in new files. -/
structure KeepsOutside (disk : Disk) (places : List Location) (after : Disk) : Prop where
  workingDirectory : after.workingDirectory = disk.workingDirectory
  nodes : ∀ location ∉ places, after.node? location = disk.node? location
  content : ∀ id < disk.nextId, after.content id = disk.content id

theorem keepsOutside_of_gains {initial after : Disk} {files : List (Location × FileId)}
    (gains : initial.Gains files after.settled) :
    initial.KeepsOutside (files.map Prod.fst) after :=
  ⟨gains.workingDirectory, gains.elsewhere, gains.content⟩

/-- There is a new file at the place of a path, where nothing was. No other place has changed. -/
def GainsFile (disk : Disk) (path : Path) (after : Disk) : Prop :=
  ∃ location id, disk.findVacant path = .ok location ∧ disk.nextId ≤ id ∧
    after.node? location = some (.file id) ∧ disk.KeepsOutside [location] after

theorem gainsFile_of_gains {initial after : Disk} {path : Path} {location : Location}
    {id : FileId} (vacant : initial.findVacant path = .ok location)
    (gains : initial.Gains [(location, id)] after.settled) : initial.GainsFile path after :=
  ⟨location, id, vacant, gains.new _ List.mem_cons_self, gains.there _ List.mem_cons_self,
    keepsOutside_of_gains gains⟩

/-- Each file of a run takes three requests: to make it, to write it and to sync it. The first one
that is refused is the write or the sync of the file of a path, and its refusal is the error. -/
def StopsWithin (disk : Disk) (paths : List Path) (path : Path) (e : Error) : Prop :=
  ∃ request outage, disk.RefusesFirst request outage ∧ request % 3 ≠ 0 ∧
    paths[request / 3]? = some path ∧ e = .refused outage.refusal

/-- The three requests of a file are granted, and a later one is not. -/
theorem stopsWithin_cons {disk after : Disk} (first : Path) {path : Path} {paths : List Path}
    {e : Error} (granted : disk.Grants 3) (outages : after.outages = disk.outages.drop 3)
    (stops : after.StopsWithin paths path e) : disk.StopsWithin (first :: paths) path e := by
  obtain ⟨request, outage, refuses, within, own, same⟩ := stops
  refine ⟨3 + request, outage, refusesFirst_of_drop granted outages refuses, by omega, ?_, same⟩
  rw [show (3 + request) / 3 = request / 3 + 1 by omega, List.getElem?_cons_succ, own]

theorem writesOnly_settled {disk after : Disk} {id : FileId} (wrote : disk.WritesOnly id after) :
    disk.settled.WritesOnly id after.settled :=
  { wrote with outages := fun _ mem => mem }

/-! ## New files on any disk -/

/-- A write and a sync, until one of them is refused. -/
theorem write_sync_on {α : Type} (disk : Disk) (id : FileId) (write : Write) (value : α) :
    ∃ after, disk.WritesOnly id after ∧
      ((∃ request outage, request < 2 ∧ disk.RefusesFirst request outage ∧
        (do Disk.write id write; Disk.sync; return value : Action Disk α).on disk =
          (.error (.refused outage.refusal), after)) ∨
      disk.Grants 2 ∧ after.outages = disk.outages.drop 2 ∧
        (do Disk.write id write; Disk.sync; return value : Action Disk α).on disk =
          (.ok value, after)) := by
  rcases disk.grantsNext_or with first | ⟨outage, next⟩
  · have one : disk.Grants 1 := grants_one first
    have wrote := write_on_of_grantsNext first id write
    have only := disk.writesOnly_afterWrite id write
    have both := only.trans (writesOnly_afterRequest _ id)
    rcases (disk.afterWrite id write).grantsNext_or with second | ⟨outage, next⟩
    · refine ⟨_, both, .inr ⟨grants_add one rfl (grants_one second), List.drop_drop, ?_⟩⟩
      rw [Action.on_bind_ok wrote, Action.on_bind_ok (sync_on_of_grantsNext second)]
      rfl
    · refine ⟨_, both, .inl ⟨1, outage, by decide,
        refusesFirst_of_drop one rfl (refusesFirst_of_head? next), ?_⟩⟩
      rw [Action.on_bind_ok wrote, Action.on_bind_error (sync_on_of_outage next)]
  · exact ⟨_, disk.writesOnly_afterWrite id _, .inl ⟨0, outage, by decide,
      refusesFirst_of_head? next, Action.on_bind_error (write_on_of_outage next id write)⟩⟩

end Disk

/-- A file cannot be made and nothing changes, or it is made and its write or its sync is refused,
or all three requests are granted. -/
theorem TrajectoryFile.create_on_or_stops (disk : Disk) (path : Path) (schema : FileSchema)
    (format : FileFormat) (codec : Codec) (stepCount : UInt32) :
    (∃ e, (create path schema format codec stepCount).on disk = (.error e, disk.afterRequest)) ∨
    ∃ location after, disk.afterRequest.findVacant path = .ok location ∧
      (disk.afterRequest.addFile location []).WritesOnly disk.nextId after ∧
      ((∃ e, (create path schema format codec stepCount).on disk = (.error e, after) ∧
          ∀ others, disk.StopsWithin (path :: others) path e) ∨
        ∃ file, (create path schema format codec stepCount).on disk = (.ok file, after) ∧
          file.id = disk.nextId ∧ file.path = path ∧ disk.Grants 3 ∧
          after.outages = disk.outages.drop 3) := by
  rw [create_eq]
  rcases disk.create_on_or_refused path with ⟨e, refused⟩ | ⟨first, location, vacant, made⟩
  · exact .inl ⟨e, Action.on_bind_error refused⟩
  · have one : disk.Grants 1 := Disk.grants_one first
    rw [Action.on_bind_ok made]
    obtain ⟨after, wrote, ⟨request, outage, below, refuses, stopped⟩ | ⟨two, outages, done⟩⟩ :=
      Disk.write_sync_on (disk.afterRequest.addFile location []) disk.nextId
        ⟨0, (newImage schema format codec stepCount).bytes⟩
        (⟨disk.nextId, path, (newImage schema format codec stepCount).header,
          (newImage schema format codec stepCount).header.dataOffset⟩ : TrajectoryFile)
    · refine .inr ⟨location, after, vacant, wrote, .inl ⟨_, stopped, fun others => ?_⟩⟩
      refine ⟨1 + request, outage, Disk.refusesFirst_of_drop one rfl refuses, by omega, ?_, rfl⟩
      rw [show (1 + request) / 3 = 0 by omega, List.getElem?_cons_zero]
    · exact .inr ⟨location, after, vacant, wrote, .inr ⟨_, done, rfl, rfl,
        Disk.grants_add one rfl two, outages.trans List.drop_drop⟩⟩

/-- The same for the file of a writer, on a disk that has some files more than in the beginning. -/
theorem Writer.create_of_settled {initial disk : Disk} {files : List (Location × FileId)}
    (gains : initial.Gains files disk.settled) (path : Path) (population : Population)
    (layout : RunLayout) (schema : FileSchema) (format : FileFormat) (policy : CompressionPolicy) :
    (∃ e after, (create path population layout schema format policy).on disk = (.error e, after) ∧
      initial.Gains files after.settled) ∨
    ∃ location after, initial.findVacant path = .ok location ∧
      initial.Gains (files ++ [(location, disk.nextId)]) after.settled ∧
      ((∃ e, (create path population layout schema format policy).on disk = (.error e, after) ∧
          ∀ others, disk.StopsWithin (path :: others) path e) ∨
        ∃ writer, (create path population layout schema format policy).on disk =
            (.ok writer, after) ∧
          writer.file.id = disk.nextId ∧ writer.file.path = path ∧ disk.Grants 3 ∧
          after.outages = disk.outages.drop 3) := by
  rw [create]
  rcases TrajectoryFile.create_on_or_stops disk path schema format policy.method layout.stepCount
    with ⟨e, refused⟩ | ⟨location, after, vacant, wrote, outcome⟩
  · exact .inl ⟨e, _, Action.on_bind_error refused, gains⟩
  · have free := Disk.node?_of_findVacant vacant
    have added : initial.Gains (files ++ [(location, disk.nextId)])
        (disk.afterRequest.addFile location []).settled := Disk.gains_addFile gains free []
    -- No way has changed, so the place was free in the beginning too.
    have keeps := Disk.keepsWays_of_gains_symm gains
    replace keeps : disk.afterRequest.KeepsWays initial := keeps
    have place : initial.findVacant path = .ok location :=
      Disk.findVacant_of_keepsWays keeps gains.workingDirectory.symm vacant
        (added.vacant (location, disk.nextId) (List.mem_append_right _ List.mem_cons_self))
    refine .inr ⟨location, after, place,
      Disk.gains_of_writesOnly added gains.nextId (Disk.writesOnly_settled wrote), ?_⟩
    rcases outcome with ⟨e, stopped, within⟩ | ⟨file, made, own, named, granted, outages⟩
    · exact .inl ⟨e, Action.on_bind_error stopped, within⟩
    · exact .inr ⟨_, (Action.on_bind_ok made).trans rfl, own, named, granted, outages⟩

/-! ## Lifecycles -/

namespace Lifecycle

/-- Of the files of some paths only the last one is there. The others went to places of their
own. -/
structure LeavesLast (initial : Disk) (front : List Path) (path : Path) (after : Disk)
    (location : Location) (id : FileId) : Prop where
  vacant : initial.findVacant path = .ok location
  gains : initial.Gains [(location, id)] after.settled
  apart : ∀ other ∈ front, ∃ place, initial.findVacant other = .ok place ∧ place ≠ location

/-- If the files of a run cannot all be made, the ones that were made are removed. At most the one
that was being made is left, when its write or its sync is what was refused. -/
theorem createWriters_of_settled {initial disk after : Disk} {files : List (Location × FileId)}
    (gains : initial.Gains files disk.settled) (layout : RunLayout) (schema : FileSchema)
    (format : FileFormat) (policy : CompressionPolicy) {made : List Writer}
    (lead : initial.LeadTo (made.map (·.file.path)) files) {entries : List (Population × Path)}
    {e : Error} (refused : (createWriters layout schema format policy made entries).on disk =
      (.error e, after)) :
    initial.Gains [] after.settled ∨
    ∃ front path rest location id, entries.map Prod.snd = front ++ path :: rest ∧
      disk.StopsWithin (entries.map Prod.snd) path e ∧ location ∉ files.map Prod.fst ∧
      LeavesLast initial front path after location id := by
  induction entries generalizing made files disk with
  | nil => cases refused
  | cons entry entries ih =>
    obtain ⟨population, path⟩ := entry
    rw [createWriters_cons_on] at refused
    rcases Writer.create_of_settled gains path population layout schema format policy with
      ⟨e, last, stopped, kept⟩ | ⟨location, last, vacant, more, outcome⟩
    · -- The files that were made before are removed by the paths they were made for.
      rw [stopped] at refused
      cases refused
      have all : initial.Gains (files ++ []) last.settled := (List.append_nil files).symm ▸ kept
      obtain ⟨after, removed, -, clean⟩ := Disk.settled_removeFiles all lead
      rw [removed]
      exact .inl clean
    · rcases outcome with ⟨e, stopped, within⟩ | ⟨writer, created, own, named, granted, outages⟩
      · -- So they are now, but the new file is none of them.
        rw [stopped] at refused
        cases refused
        obtain ⟨after, removed, -, left⟩ := Disk.settled_removeFiles more lead
        rw [removed]
        have fresh := more.distinct
        rw [List.map_append, List.nodup_append] at fresh
        refine .inr ⟨[], path, _, location, disk.nextId, rfl, within _, fun mem => ?_,
          vacant, left, fun other mem => by cases mem⟩
        exact fresh.2.2 location mem location List.mem_cons_self rfl
      · rw [created] at refused
        have longer : initial.LeadTo ((made ++ [writer]).map (·.file.path))
            (files ++ [(location, disk.nextId)]) := by
          rw [Disk.LeadTo, List.map_append, List.map_append, List.map_append, lead]
          simp [named, vacant]
        rcases ih more longer refused with
          clean | ⟨front, last, rest, place, id, split, stops, new, left⟩
        · exact .inl clean
        · -- The file that is left is a later one, so it is not at the place of this one.
          rw [List.map_append, List.mem_append, not_or] at new
          refine .inr ⟨path :: front, last, rest, place, id, congrArg (path :: ·) split,
            Disk.stopsWithin_cons path granted outages stops, new.1, left.vacant, left.gains, ?_⟩
          rintro other (_ | ⟨_, mem⟩)
          · exact ⟨location, vacant, fun same => new.2 (same ▸ List.mem_cons_self)⟩
          · exact left.apart other mem

/-- A file that is left stands in the way of the next run with the same destinations. -/
theorem begin_of_leavesLast {lifecycle : Lifecycle} (closed : lifecycle.isOpen = false)
    {disk after : Disk} {destinations : Destinations} {front rest : List Path} {path : Path}
    {location : Location} {id : FileId} (accepted : validateTargets disk destinations = .ok ())
    (split : destinations.paths = front ++ path :: rest)
    (left : LeavesLast disk front path after location id) (layout : RunLayout)
    (globals : GlobalAttributes) (created : Timestamp) (format : FileFormat)
    (policy : CompressionPolicy) :
    lifecycle.begin destinations layout globals created format policy after =
      (.error (.invalidDestination path.text .alreadyExists), lifecycle, after) := by
  have keeps : disk.KeepsWays after.settled := Disk.keepsWays_of_gains left.gains
  replace keeps : disk.KeepsWays after := keeps
  have same : after.workingDirectory = disk.workingDirectory := left.gains.workingDirectory
  -- Of the targets in front nothing is left, so they are accepted as they were.
  have others : ∀ other ∈ front, after.validateTarget other = .ok () := by
    intro other mem
    obtain ⟨place, vacant, apart⟩ := left.apart other mem
    have inside : other ∈ destinations.paths := split ▸ List.mem_append_left _ mem
    have free : after.node? place = none :=
      (left.gains.elsewhere place (by simpa using apart)).trans (Disk.node?_of_findVacant vacant)
    exact Disk.validateTarget_of_vacant keeps same vacant
      (Error.forM_eq_ok_iff.1 accepted other inside) free
  have own := Disk.validateTarget_of_file keeps same left.vacant
    (left.gains.there _ List.mem_cons_self)
  have again : validateTargets after destinations =
      .error (.invalidDestination path.text .alreadyExists) := by
    rw [validateTargets, split]
    exact Error.forM_eq_error others own
  have notOpen : ¬lifecycle.isOpen = true := Bool.eq_false_iff.1 closed
  rw [begin, if_neg notOpen, again]

/-- A run is not begun when another one is open, when a target is not accepted, or when a file
cannot be made. -/
theorem begin_eq_error {lifecycle next : Lifecycle} {destinations : Destinations}
    {layout : RunLayout} {globals : GlobalAttributes} {created : Timestamp} {format : FileFormat}
    {policy : CompressionPolicy} {disk after : Disk} {e : Error}
    (refused : lifecycle.begin destinations layout globals created format policy disk =
      (.error e, next, after)) :
    lifecycle.isOpen = true ∧ e = .alreadyRunning ∧ after = disk ∨
    lifecycle.isOpen = false ∧ (validateTargets disk destinations = .error e ∧ after = disk ∨
      validateTargets disk destinations = .ok () ∧
      (createWriters layout (layout.fileSchema globals created) format policy []
        destinations.entries).on disk = (.error e, after)) := by
  unfold begin at refused
  split at refused
  · next opened =>
      cases refused
      exact .inl ⟨opened, rfl, rfl⟩
  · next closed =>
      refine .inr ⟨Bool.eq_false_iff.2 closed, ?_⟩
      split at refused
      · next target =>
          cases refused
          exact .inl ⟨target, rfl⟩
      · next accepted =>
          dsimp only at refused
          split at refused
          · next stopped =>
              cases refused
              exact .inr ⟨accepted, stopped⟩
          · cases refused

/-- A run that is not begun leaves the lifecycle as it was. When another run is open, nothing at all
happens. Otherwise the tree is as it was, and every target is accepted or not as before, or the
write or the sync of a new file is what was refused. Then the tree is as it was but for this file,
which is there, and no run with the same destinations is begun any more. -/
theorem keepsOutside_of_begin_error {lifecycle next : Lifecycle} {destinations : Destinations}
    {layout : RunLayout} {globals : GlobalAttributes} {created : Timestamp} {format : FileFormat}
    {policy : CompressionPolicy} {disk after : Disk} {e : Error}
    (refused : lifecycle.begin destinations layout globals created format policy disk =
      (.error e, next, after)) :
    next = lifecycle ∧
    (lifecycle.isOpen = true → e = .alreadyRunning ∧ after = disk) ∧
    ((disk.KeepsOutside [] after ∧ ∀ path, after.validateTarget path = disk.validateTarget path ∧
        after.findVacant path = disk.findVacant path) ∨
      ∃ path, disk.StopsWithin destinations.paths path e ∧ disk.GainsFile path after ∧
        ∀ layout globals created format policy,
          next.begin destinations layout globals created format policy after =
            (.error (.invalidDestination path.text .alreadyExists), next, after)) := by
  have same : disk.KeepsOutside [] disk := Disk.keepsOutside_of_gains disk.gains_settled_self
  obtain rfl := begin_of_error refused
  refine ⟨rfl, ?_⟩
  rcases begin_eq_error refused with
    ⟨opened, rfl, rfl⟩ | ⟨closed, ⟨target, rfl⟩ | ⟨accepted, stopped⟩⟩
  · exact ⟨fun _ => ⟨rfl, rfl⟩, .inl ⟨same, fun path => ⟨rfl, rfl⟩⟩⟩
  · exact ⟨by simp [closed], .inl ⟨same, fun path => ⟨rfl, rfl⟩⟩⟩
  · refine ⟨by simp [closed], ?_⟩
    have noPaths : disk.LeadTo (([] : List Writer).map (·.file.path)) [] := rfl
    rcases createWriters_of_settled disk.gains_settled_self layout _ format policy noPaths stopped
      with clean | ⟨front, path, rest, location, id, split, stops, -, left⟩
    · have kept := Disk.keepsOutside_of_gains clean
      have nodes : ∀ location, after.node? location = disk.node? location :=
        fun location => kept.nodes location List.not_mem_nil
      exact .inl ⟨kept, fun path =>
        ⟨Disk.validateTarget_congr nodes kept.workingDirectory path,
          Disk.findVacant_congr nodes kept.workingDirectory path⟩⟩
    · rw [← destinations.paths_eq_map_entries] at stops split
      exact .inr ⟨path, stops, Disk.gainsFile_of_gains left.vacant left.gains,
        begin_of_leavesLast closed accepted split left⟩

/-- A run whose twin meets a link is refused when its primary file is there already. The file is
gone then, and the next run finds the targets as this one found them. -/
theorem keepsOutside_blockedTwin : ∃ last,
    idle.begin (.derive SmallRun.path true) (BlockedTwin.layout true) {} SmallRun.time .classic
        (.ofCodec .stored) BlockedTwin.disk = (.error (.refused .alreadyExists), idle, last) ∧
      BlockedTwin.disk.KeepsOutside [] last ∧ ∀ path,
        last.validateTarget path = BlockedTwin.disk.validateTarget path ∧
        last.findVacant path = BlockedTwin.disk.findVacant path := by
  obtain ⟨last, begun⟩ := BlockedTwin.begin_uncertain
  refine ⟨last, begun, ?_⟩
  rcases (keepsOutside_of_begin_error begun).2.2 with clean | ⟨_, stops, -⟩
  · exact clean
  · -- The disk has no outages.
    obtain ⟨request, outage, refuses, -⟩ := stops
    cases refuses.refused

end Lifecycle

/-! ## A full disk -/

namespace FullDisk

/-- No byte can be written. -/
def outage : Outage := ⟨.other "No space left on device (os error 28)", 0⟩

/-- The disk of the small run, if a file can be made there but not written. -/
def disk : Disk := { SmallRun.disk with outages := [none, some outage] }

/-- An empty file, which was not there before. -/
def after : Disk := (disk.afterRequest.addFile ["run"] []).afterWrite disk.nextId ⟨0, []⟩

theorem findVacant_path : disk.afterRequest.findVacant SmallRun.path = .ok ["run"] := by
  have nodes : ∀ location,
      disk.afterRequest.node? location = SmallRun.disk.afterRequest.node? location := fun _ => rfl
  rw [Disk.findVacant_congr nodes rfl, SmallRun.findVacant_path]

theorem validateTarget_path : disk.validateTarget SmallRun.path = .ok () := by
  have nodes : ∀ location, disk.node? location = SmallRun.disk.node? location := fun _ => rfl
  rw [Disk.validateTarget_congr nodes rfl, SmallRun.validateTarget_path]

theorem create_on :
    (Writer.create SmallRun.path .base SmallRun.layout SmallRun.schema .classic
      (.ofCodec .stored)).on disk = (.error (.refused outage.refusal), after) := by
  have first : disk.GrantsNext := rfl
  have made := Disk.create_on_of_grantsNext first findVacant_path
  have full : (disk.afterRequest.addFile ["run"] []).outages.head? = some (some outage) := rfl
  rw [Writer.create, TrajectoryFile.create_eq]
  refine Action.on_bind_error ((Action.on_bind_ok made).trans ?_)
  exact Action.on_bind_error (Disk.write_on_of_outage full _ _)

theorem validateTarget_after :
    after.validateTarget SmallRun.path =
      .error (.invalidDestination SmallRun.path.text .alreadyExists) := by
  have free : disk.settled.node? ["run"] = none := rfl
  have there : after.node? ["run"] = some (.file 0) := rfl
  have keeps : disk.settled.KeepsWays (disk.settled.addFile ["run"] []) :=
    Disk.keepsWays_of_gains (Disk.gains_addFile disk.settled.gains_settled_self free [])
  replace keeps : disk.afterRequest.KeepsWays after := keeps
  exact Disk.validateTarget_of_file keeps rfl findVacant_path there

end FullDisk

/-- On a full disk a run is not begun, but its file is there, where nothing was. When there is room
again, this file is in the way of the same run. -/
theorem Lifecycle.begin_fullDisk :
    idle.begin SmallRun.destinations SmallRun.layout {} SmallRun.time .classic (.ofCodec .stored)
        FullDisk.disk = (.error (.refused FullDisk.outage.refusal), idle, FullDisk.after) ∧
      FullDisk.disk.node? ["run"] = none ∧ FullDisk.after.node? ["run"] = some (.file 0) ∧
      FullDisk.after.outages = [] ∧
      idle.begin SmallRun.destinations SmallRun.layout {} SmallRun.time .classic
        (.ofCodec .stored) FullDisk.after =
          (.error (.invalidDestination SmallRun.path.text .alreadyExists), idle,
            FullDisk.after) := by
  have closed : ¬idle.isOpen = true := by decide
  have targets : validateTargets FullDisk.disk SmallRun.destinations = .ok () := by
    simp [validateTargets, SmallRun.destinations, Destinations.derive, Destinations.paths,
      FullDisk.validateTarget_path, bind, Except.bind, pure, Except.pure]
  have writers : (createWriters SmallRun.layout SmallRun.schema .classic (.ofCodec .stored) []
      SmallRun.destinations.entries).on FullDisk.disk =
        (.error (.refused FullDisk.outage.refusal), FullDisk.after) := by
    rw [SmallRun.destinations, Destinations.derive, Destinations.entries, createWriters_cons_on,
      FullDisk.create_on]
    rfl
  have again : validateTargets FullDisk.after SmallRun.destinations =
      .error (.invalidDestination SmallRun.path.text .alreadyExists) :=
    Error.forM_eq_error (List.forall_mem_nil _) FullDisk.validateTarget_after
  rw [SmallRun.schema] at writers
  refine ⟨?_, rfl, rfl, rfl, ?_⟩
  · rw [begin, if_neg closed, targets]
    simp only [writers]
  · rw [begin, if_neg closed, again]

end RaggedTrajectory
