import RaggedTrajectory.Proofs.File.Outages
import RaggedTrajectory.Proofs.Lifecycle.Populations

/-!
# The records of a run

The file of a population has one chunk for every call that was accepted, in the order of these
calls, and behind the chunks no more than what refused calls have left. This holds on every disk,
whatever requests it refuses; on a disk that refuses none the file is the image of the accepted
calls.

* `Writer.isMadeOf_write`: a call adds its record, or it is refused.
* `OpenRun.holds_write`: a call for any population, with the files of the others beside it.
* `Lifecycle.holds_of_begin`: a run that was begun has files without records.
-/

namespace RaggedTrajectory

namespace WriteCall

/-- A call that was accepted, as a list; none, if it was refused. -/
def acceptedBy {α : Type} (call : WriteCall) : Except Error α → List WriteCall
  | .ok _ => [call]
  | .error _ => []

/-- A call is one of the calls of its population if it is accepted, and none of the others. -/
theorem filter_acceptedBy {α : Type} (call : WriteCall) (result : Except Error α)
    (population : Population) :
    (call.acceptedBy result).filter (·.snapshot.population = population) =
      if call.snapshot.population = population then call.acceptedBy result else [] := by
  cases result with
  | error e => split <;> rfl
  | ok a => simp [acceptedBy, List.filter_cons]

end WriteCall

/-! ## One file -/

namespace Writer

/-- The file of a writer was made of calls: the chunks of its image are theirs. As long as nothing
but the calls themselves was refused, the file is the image. -/
structure IsMadeOf (layout : RunLayout) (image : FileImage) (accepted : List WriteCall)
    (intact : Prop) (writer : Writer) (bytes : Bytes) : Prop where
  file : writer.file.Continues image bytes
  records : WriteCall.records layout writer.policy 0 accepted = .ok image.records
  nextRecord : writer.nextRecord = UInt64.ofNat (WriteCall.recordTotal accepted)
  exact : intact → writer.file.header = image.header ∧ bytes = image.bytes

/-- The file of a writer was an image before any call, and is made of calls by now, as long as its
length is a word. -/
structure Extends (layout : RunLayout) (policy : CompressionPolicy) (first : FileImage)
    (accepted : List WriteCall) (intact : Prop) (writer : Writer) (bytes : Bytes) : Prop where
  policy : writer.policy = policy
  made : bytes.length < 2 ^ 64 →
    ∃ records, writer.IsMadeOf layout { first with records } accepted intact bytes

section Write

variable {writer : Writer} {layout : RunLayout} {accepted : List WriteCall} {intact : Prop}
  {disk : Disk}

theorem policy_write (writer : Writer) (layout : RunLayout) (step : UInt32) (snapshot : Snapshot)
    (disk : Disk) : (writer.write layout step snapshot disk).2.1.policy = writer.policy := by
  unfold write
  split
  · rfl
  · split <;> rfl

/-- No call makes a file shorter. -/
theorem length_le_write (writer : Writer) (layout : RunLayout) (step : UInt32) (snapshot : Snapshot)
    (disk : Disk) :
    (disk.content writer.file.id).length ≤
      ((writer.write layout step snapshot disk).2.2.content writer.file.id).length := by
  unfold write
  split
  · exact Nat.le_refl _
  · next record own =>
      have grown := writer.file.length_le_append record disk
      split <;> next ran =>
        rw [ran] at grown
        exact grown

/-- A call is refused, and the records are as before; or there is one record more. -/
theorem isMadeOf_write {image : FileImage}
    (made : writer.IsMadeOf layout image accepted intact (disk.content writer.file.id))
    (granted : intact → disk.IsReliable) {step : UInt32} {snapshot : Snapshot}
    (room : ((writer.write layout step snapshot disk).2.2.content writer.file.id).length <
      2 ^ 64) :
    (∃ e next after, writer.write layout step snapshot disk = (.error e, next, after) ∧
      next.IsMadeOf layout image accepted intact (after.content writer.file.id)) ∨
    ∃ range record next after, writer.write layout step snapshot disk = (.ok range, next, after) ∧
      next.IsMadeOf layout (image.append record) (accepted ++ [⟨step, snapshot⟩]) intact
        (after.content writer.file.id) := by
  cases own : writer.record layout step snapshot with
  | error e =>
    -- The call does not come to the disk.
    have same : writer.write layout step snapshot disk = (.error e, writer, disk) := by
      simp only [write, own]
    exact .inl ⟨e, writer, disk, same, made⟩
  | ok record =>
    obtain ⟨-, -, call⟩ := record_eq_ok own
    have recorded := call _ made.nextRecord
    obtain ⟨-, -, count, -, -⟩ := WriteCall.record_eq_ok recorded
    have outcome : (writer.write layout step snapshot disk).2.2 =
        (writer.file.append record disk).2.2 := by
      simp only [write, own]
      split <;> next ran => rw [ran]
    rw [outcome] at room
    -- On a reliable disk the append leaves the bytes of an image.
    have whole (holds : intact) := TrajectoryFile.represents_append_on (granted holds)
      (TrajectoryFile.represents_of_continues made.file (made.exact holds).1) (made.exact holds).2
      room
    rcases TrajectoryFile.continues_append made.file room with
      ⟨e, file, after, stopped, continues⟩ | ⟨after, done, continues⟩
    · have same : writer.write layout step snapshot disk =
          (.error e, { writer with file }, after) := by
        simp only [write, own, stopped]
      refine .inl ⟨e, _, _, same, continues, made.records, made.nextRecord, ?_⟩
      intro holds
      rcases whole holds with ⟨_, refused⟩ | ⟨_, appended, -⟩
      · -- The step was refused before the first request, so nothing has changed.
        rw [refused] at stopped
        cases stopped
        exact made.exact holds
      · rw [appended] at stopped
        cases stopped
    · have same : writer.write layout step snapshot disk =
          (.ok (writer.nextRecord, writer.nextRecord + record.count), writer.advanced record,
            after) := by
        simp only [write, own, done, advanced]
      refine .inr ⟨_, record, _, _, same, continues, ?_, ?_, ?_⟩
      · exact WriteCall.records_concat.2 ⟨image.records, record, made.records, recorded, rfl⟩
      · show writer.nextRecord + record.count = _
        rw [made.nextRecord, count, ← UInt64.ofNat_add, WriteCall.recordTotal_concat]
      · intro holds
        rcases whole holds with ⟨_, refused⟩ | ⟨_, appended, represents, bytes⟩
        · rw [refused] at done
          cases done
        · rw [appended] at done
          cases done
          exact ⟨represents.header, bytes⟩

/-- A call adds itself to the calls that a file is made of, if it is accepted. -/
theorem extends_write {policy : CompressionPolicy} {first : FileImage}
    (further : writer.Extends layout policy first accepted intact (disk.content writer.file.id))
    (granted : intact → disk.IsReliable) (step : UInt32) (snapshot : Snapshot) :
    (writer.write layout step snapshot disk).2.1.Extends layout policy first
      (accepted ++ WriteCall.acceptedBy ⟨step, snapshot⟩ (writer.write layout step snapshot disk).1)
      intact ((writer.write layout step snapshot disk).2.2.content writer.file.id) := by
  refine ⟨(writer.policy_write layout step snapshot disk).trans further.policy, fun room => ?_⟩
  have before := writer.length_le_write layout step snapshot disk
  obtain ⟨records, made⟩ := further.made (Nat.lt_of_le_of_lt before room)
  rcases isMadeOf_write made granted room with
    ⟨e, next, after, wrote, made⟩ | ⟨range, record, next, after, wrote, made⟩
  · rw [wrote, WriteCall.acceptedBy, List.append_nil]
    exact ⟨records, made⟩
  · rw [wrote]
    exact ⟨records ++ [record], made⟩

end Write

end Writer

/-! ## The files of a run -/

namespace OpenRun

/-- The call goes to the first writer of its population. -/
theorem writeWith_of_find? (layout : RunLayout) (step : UInt32) {snapshot : Snapshot} (disk : Disk)
    {writers : List Writer} {writer : Writer}
    (found : (writers.find? fun writer => writer.population = snapshot.population) =
      some writer) :
    (writeWith layout step snapshot disk writers).1 = (writer.write layout step snapshot disk).1 ∧
      ((writeWith layout step snapshot disk writers).2.1.find? fun writer =>
        writer.population = snapshot.population) =
          some (writer.write layout step snapshot disk).2.1 ∧
      (writeWith layout step snapshot disk writers).2.2 =
        (writer.write layout step snapshot disk).2.2 := by
  induction writers with
  | nil => cases found
  | cons first writers ih =>
    rw [writeWith]
    by_cases own : first.population = snapshot.population
    · rw [List.find?_cons_of_pos (by simpa using own)] at found
      cases found
      have kept := (writer.population_write layout step snapshot disk).trans own
      rw [if_pos own]
      exact ⟨rfl, List.find?_cons_of_pos (by simpa using kept), rfl⟩
    · rw [List.find?_cons_of_neg (by simpa using own)] at found
      obtain ⟨result, still, after⟩ := ih found
      rw [if_neg own]
      exact ⟨result, (List.find?_cons_of_neg (by simpa using own)).trans still, after⟩

/-- The file of every destination is made of the accepted calls of its population. -/
structure Holds (run : OpenRun) (policy : CompressionPolicy) (first : FileImage)
    (accepted : List WriteCall) (intact : Prop) (disk : Disk) : Prop where
  apart : run.IsApart disk
  reliable : intact → disk.IsReliable
  files : ∀ population path, run.destinations.pathFor? population = some path → ∃ writer,
    (run.writers.find? fun writer => writer.population = population) = some writer ∧
      writer.Extends run.layout policy first
        (accepted.filter (·.snapshot.population = population)) intact
        (disk.content writer.file.id)

/-- What the destination of a population holds. -/
theorem exists_extends_of_holds {run : OpenRun} {policy : CompressionPolicy} {first : FileImage}
    {accepted : List WriteCall} {intact : Prop} {disk : Disk}
    (holds : run.Holds policy first accepted intact disk) {population : Population} {path : Path}
    (destination : run.destinations.pathFor? population = some path) :
    ∃ (writer : Writer) (bytes : Bytes), disk.bytesAt? path = some bytes ∧
      writer.Extends run.layout policy first
        (accepted.filter (·.snapshot.population = population)) intact bytes := by
  obtain ⟨writer, found, further⟩ := holds.files population path destination
  have mem := List.mem_of_find?_eq_some found
  have mine : writer.population = population := by simpa using List.find?_some found
  -- The path names the file of the writer.
  obtain ⟨place, own, named⟩ := holds.apart.named writer.mark (List.mem_map_of_mem mem)
  rw [Writer.mark, mine, destination] at own
  cases own
  exact ⟨writer, _, Disk.bytesAt?_of_names named, further⟩

/-- A call adds itself to the calls of the run, if it is accepted. -/
theorem holds_write {run : OpenRun} {policy : CompressionPolicy} {first : FileImage}
    {accepted : List WriteCall} {intact : Prop} {disk : Disk}
    (holds : run.Holds policy first accepted intact disk) (step : UInt32) (snapshot : Snapshot)
    {result : Except Error (UInt64 × UInt64)} {writers : List Writer} {after : Disk}
    (wrote : writeWith run.layout step snapshot disk run.writers = (result, writers, after)) :
    { run with writers }.Holds policy first
      (accepted ++ WriteCall.acceptedBy ⟨step, snapshot⟩ result) intact after := by
  have apart := isApart_writeWith holds.apart step snapshot
  rw [wrote] at apart
  refine ⟨apart, ?_, ?_⟩
  · intro intact
    obtain ⟨id, only⟩ := exists_writesOnly_writeWith run.layout step snapshot disk run.writers
    rw [wrote] at only
    exact Disk.isReliable_of_writesOnly (holds.reliable intact) only
  · intro population path destination
    obtain ⟨writer, found, further⟩ := holds.files population path destination
    rw [List.filter_append, WriteCall.filter_acceptedBy]
    by_cases own : snapshot.population = population
    · -- The call goes to the file.
      subst own
      obtain ⟨same, still, last⟩ := writeWith_of_find? run.layout step disk found
      rw [wrote] at same still last
      refine ⟨_, still, ?_⟩
      have extended := Writer.extends_write further holds.reliable step snapshot
      have id : (writer.write run.layout step snapshot disk).2.1.file.id = writer.file.id :=
        (writer.writesOnly_write run.layout step snapshot disk).1
      rw [if_pos rfl, id]
      dsimp only at same last
      rw [same, last]
      exact extended
    · -- The file is that of another population.
      have still := find?_writeWith_ne run.layout step snapshot disk run.writers (Ne.symm own)
      have mine : writer.population = population := by simpa using List.find?_some found
      have kept := content_writeWith run.layout step snapshot disk run.writers writer.file.id
        fun used inside uses => file_ne_of_isApart holds.apart inside
          (List.mem_of_find?_eq_some found) fun same => own (uses.symm.trans (same.trans mine))
      rw [wrote] at still kept
      rw [← kept] at further
      rw [if_neg own, List.append_nil]
      exact ⟨writer, still.trans found, further⟩

end OpenRun

namespace Lifecycle

/-- There is a run, and its files are made of the accepted calls. -/
def Holds (policy : CompressionPolicy) (first : FileImage) (accepted : List WriteCall)
    (intact : Prop) (lifecycle : Lifecycle) (disk : Disk) : Prop :=
  ∃ run, lifecycle.run = some run ∧ run.Holds policy first accepted intact disk

/-- A call to the run, whatever comes of it. -/
theorem holds_write {policy : CompressionPolicy} {first : FileImage} {accepted : List WriteCall}
    {intact : Prop} {lifecycle : Lifecycle} {disk : Disk}
    (holds : lifecycle.Holds policy first accepted intact disk) (step : UInt32)
    (snapshot : Snapshot) :
    (lifecycle.write step snapshot disk).2.1.Holds policy first
      (accepted ++ WriteCall.acceptedBy ⟨step, snapshot⟩ (lifecycle.write step snapshot disk).1)
      intact (lifecycle.write step snapshot disk).2.2 := by
  obtain ⟨run, opened, holds⟩ := holds
  rw [write, opened]
  exact ⟨_, rfl, OpenRun.holds_write holds step snapshot rfl⟩

/-- When a run was begun, no call was accepted, and its files are the images of new ones. -/
theorem holds_of_begin {lifecycle run : Lifecycle} {destinations : Destinations}
    {layout : RunLayout} {globals : GlobalAttributes} {created : Timestamp} {format : FileFormat}
    {policy : CompressionPolicy} {disk after : Disk}
    (begun : lifecycle.begin destinations layout globals created format policy disk =
      (.ok (), run, after)) :
    run.Holds policy (TrajectoryFile.newImage (layout.fileSchema globals created) format
      policy.method layout.stepCount) [] after.IsReliable after := by
  obtain ⟨writers, rfl, -⟩ := begin_eq_ok begun
  refine ⟨_, rfl, isApart_of_begin begun _ rfl, id, fun population path destination => ?_⟩
  have view := view?_of_begin begun destination
  simp only [view?, Option.bind_some, Option.map_eq_some_iff] at view
  obtain ⟨writer, found, same⟩ := view
  -- The view of the writer says what is in memory and what is in the file.
  have header := congrArg FileView.header same
  have bytes : after.content writer.file.id =
      (TrajectoryFile.newImage (layout.fileSchema globals created) format policy.method
        layout.stepCount).bytes := congrArg FileView.bytes same
  refine ⟨writer, found, congrArg FileView.policy same, fun room => ⟨[], ?_, rfl,
    congrArg FileView.nextRecord same, fun _ => ⟨header, bytes⟩⟩⟩
  rw [bytes] at room ⊢
  exact TrajectoryFile.continues_of_represents
    (TrajectoryFile.represents_newImage header (congrArg FileView.ending same) room)

end Lifecycle

end RaggedTrajectory
