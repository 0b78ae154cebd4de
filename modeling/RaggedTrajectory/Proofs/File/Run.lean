import RaggedTrajectory.Proofs.File.Append
import RaggedTrajectory.Writer

/-!
# Runs of write calls

A run is a row of calls to write a step. Some of them succeed: these are the accepted ones, and the
file of the writer holds their records and nothing else. The invariant `Writer.Holds` says so; one
call keeps it, and so does a whole run.

* `Writer.write_on`: a call is refused and changes nothing, or it appends one record.
* `Writer.holds_write`: an accepted call keeps the invariant.
* `Writer.holds_writeAll`: a run keeps the invariant.
-/

namespace RaggedTrajectory

/-- A call to write a step. -/
structure WriteCall where
  step : UInt32
  snapshot : Snapshot

namespace WriteCall

/-- The number of records of calls. -/
def recordTotal (calls : List WriteCall) : Nat := sumOf (calls.map (·.snapshot.count))

@[simp]
theorem recordTotal_nil : recordTotal [] = 0 := rfl

@[simp]
theorem recordTotal_cons (call : WriteCall) (calls : List WriteCall) :
    recordTotal (call :: calls) = call.snapshot.count + recordTotal calls := rfl

@[simp]
theorem recordTotal_append (first second : List WriteCall) :
    recordTotal (first ++ second) = recordTotal first + recordTotal second := by
  rw [recordTotal, List.map_append, sumOf_append]
  rfl

theorem recordTotal_concat (calls : List WriteCall) (call : WriteCall) :
    recordTotal (calls ++ [call]) = recordTotal calls + call.snapshot.count := by
  rw [recordTotal_append, recordTotal_cons, recordTotal_nil, Nat.add_zero]

/-- Of any calls, either one is the last for a step or none is for the step. -/
theorem exists_last_or_absent (calls : List WriteCall) (step : UInt32) :
    (∃ before call after, calls = before ++ call :: after ∧
      (∀ later ∈ after, later.step ≠ call.step) ∧ call.step = step) ∨
    ∀ call ∈ calls, call.step ≠ step := by
  induction calls with
  | nil => exact .inr fun call mem => by cases mem
  | cons first calls ih =>
    rcases ih with ⟨before, call, after, rfl, last, same⟩ | absent
    · exact .inl ⟨first :: before, call, after, rfl, last, same⟩
    · -- No later call is for the step, so the first one decides.
      by_cases same : first.step = step
      · exact .inl ⟨[], first, calls, rfl, fun later mem => same ▸ absent later mem, same⟩
      · exact .inr (List.forall_mem_cons.2 ⟨same, absent⟩)

/-- The record of a call whose first record has a given number. -/
def record (layout : RunLayout) (policy : CompressionPolicy) (start : Nat) (call : WriteCall) :
    Except Error StepRecord := do
  let chunk ←
    Chunk.encode layout.manifest call.step (UInt64.ofNat start) call.snapshot policy
  return {
    step := call.step
    time := layout.elapsedSeconds call.snapshot.time
    count := UInt64.ofNat call.snapshot.count
    recordStart := UInt64.ofNat start
    chunk }

/-- The records of calls, each of which starts where the one before it ended. -/
def records (layout : RunLayout) (policy : CompressionPolicy) :
    (start : Nat) → List WriteCall → Except Error (List StepRecord)
  | _, [] => .ok []
  | start, call :: calls => do
    let record ← call.record layout policy start
    let others ← records layout policy (start + call.snapshot.count) calls
    return record :: others

section Records

variable {layout : RunLayout} {policy : CompressionPolicy}

/-- A record says what the call asked for. -/
theorem record_eq_ok {start : Nat} {call : WriteCall} {record : StepRecord}
    (made : call.record layout policy start = .ok record) :
    record.step = call.step ∧ record.time = layout.elapsedSeconds call.snapshot.time ∧
      record.count = UInt64.ofNat call.snapshot.count ∧
      record.recordStart = UInt64.ofNat start ∧
      Chunk.encode layout.manifest call.step (UInt64.ofNat start) call.snapshot policy =
        .ok record.chunk := by
  obtain ⟨chunk, encoded, same⟩ := Error.bind_eq_ok_iff.1 made
  cases same
  exact ⟨rfl, rfl, rfl, rfl, encoded⟩

theorem records_cons {start : Nat} {call : WriteCall} {calls : List WriteCall}
    {made : List StepRecord} :
    records layout policy start (call :: calls) = .ok made ↔
      ∃ record others, call.record layout policy start = .ok record ∧
        records layout policy (start + call.snapshot.count) calls = .ok others ∧
        made = record :: others := by
  simp only [records, Error.bind_eq_ok_iff]
  constructor
  · rintro ⟨record, first, others, rest, same⟩
    cases same
    exact ⟨record, others, first, rest, rfl⟩
  · rintro ⟨record, others, first, rest, rfl⟩
    exact ⟨record, first, others, rest, rfl⟩

/-- The records of a row of calls are those of its parts. -/
theorem records_append {start : Nat} {first second : List WriteCall} {made : List StepRecord} :
    records layout policy start (first ++ second) = .ok made ↔
      ∃ front back, records layout policy start first = .ok front ∧
        records layout policy (start + recordTotal first) second = .ok back ∧
        made = front ++ back := by
  induction first generalizing start made with
  | nil => simp [records]
  | cons call calls ih =>
    rw [List.cons_append, records_cons]
    constructor
    · rintro ⟨record, others, one, rest, rfl⟩
      obtain ⟨front, back, before, behind, rfl⟩ := ih.1 rest
      refine ⟨record :: front, back, records_cons.2 ⟨record, front, one, before, rfl⟩, ?_, rfl⟩
      rw [recordTotal_cons, ← Nat.add_assoc]
      exact behind
    · rintro ⟨front, back, before, behind, rfl⟩
      obtain ⟨record, others, one, rest, rfl⟩ := records_cons.1 before
      rw [recordTotal_cons, ← Nat.add_assoc] at behind
      exact ⟨record, others ++ back, one, ih.2 ⟨others, back, rest, behind, rfl⟩, rfl⟩

/-- One more call adds one record, which starts where all others end. -/
theorem records_concat {calls : List WriteCall} {call : WriteCall} {made : List StepRecord} :
    records layout policy 0 (calls ++ [call]) = .ok made ↔
      ∃ earlier record, records layout policy 0 calls = .ok earlier ∧
        call.record layout policy (recordTotal calls) = .ok record ∧
        made = earlier ++ [record] := by
  rw [records_append, Nat.zero_add]
  constructor
  · rintro ⟨earlier, back, before, behind, rfl⟩
    obtain ⟨record, others, own, rest, rfl⟩ := records_cons.1 behind
    cases rest
    exact ⟨earlier, record, before, own, rfl⟩
  · rintro ⟨earlier, record, before, own, rfl⟩
    exact ⟨earlier, [record], before, records_cons.2 ⟨record, [], own, rfl, rfl⟩, rfl⟩

theorem map_step_records {start : Nat} {calls : List WriteCall} {made : List StepRecord}
    (all : records layout policy start calls = .ok made) :
    made.map StepRecord.step = calls.map WriteCall.step := by
  induction calls generalizing start made with
  | nil =>
    obtain rfl : [] = made := by simpa [records] using all
    rfl
  | cons call calls ih =>
    obtain ⟨record, others, one, rest, rfl⟩ := records_cons.1 all
    rw [List.map_cons, List.map_cons, ih rest, (record_eq_ok one).1]

/-- Every record is for the step of a call. -/
theorem exists_call_of_mem_records {start : Nat} {calls : List WriteCall} {made : List StepRecord}
    (all : records layout policy start calls = .ok made) {record : StepRecord}
    (mem : record ∈ made) : ∃ call ∈ calls, call.step = record.step := by
  have steps : record.step ∈ calls.map WriteCall.step := by
    rw [← map_step_records all]
    exact List.mem_map_of_mem mem
  exact List.mem_map.1 steps

/-- Where no call is for a step, no record is. -/
theorem step_ne_of_records {start : Nat} {calls : List WriteCall} {made : List StepRecord}
    (all : records layout policy start calls = .ok made) {step : UInt32}
    (absent : ∀ call ∈ calls, call.step ≠ step) : ∀ record ∈ made, record.step ≠ step := by
  intro record mem same
  obtain ⟨call, inside, equal⟩ := exists_call_of_mem_records all mem
  exact absent call inside (equal.trans same)

/-- The record of a call starts behind the records of the calls before it. -/
theorem exists_record_of_split {calls before after : List WriteCall} {call : WriteCall}
    {made : List StepRecord} (all : records layout policy 0 calls = .ok made)
    (split : calls = before ++ call :: after)
    (last : ∀ later ∈ after, later.step ≠ call.step) :
    ∃ front record back, made = front ++ record :: back ∧
      call.record layout policy (recordTotal before) = .ok record ∧
      ∀ later ∈ back, later.step ≠ record.step := by
  subst split
  obtain ⟨front, behind, -, rest, rfl⟩ := records_append.1 all
  obtain ⟨record, back, one, others, rfl⟩ := records_cons.1 rest
  rw [Nat.zero_add] at one
  refine ⟨front, record, back, rfl, one, ?_⟩
  rw [(record_eq_ok one).1]
  exact step_ne_of_records others last

end Records

end WriteCall

/-! ## Calls one after the other -/

namespace Writer

/-- Makes calls in their order. A call that fails is passed over: what comes out are the calls that
succeeded, in their order, and the writer and the disk that they leave. -/
def writeAll (layout : RunLayout) :
    List WriteCall → Writer → Disk → List WriteCall × Writer × Disk
  | [], writer, disk => ([], writer, disk)
  | call :: calls, writer, disk =>
    match writer.write layout call.step call.snapshot disk with
    | (.error _, writer, disk) => writeAll layout calls writer disk
    | (.ok _, writer, disk) =>
      let (accepted, writer, disk) := writeAll layout calls writer disk
      (call :: accepted, writer, disk)

/-- A writer after it appended a record. -/
def advanced (writer : Writer) (record : StepRecord) : Writer :=
  { writer with
    file := writer.file.appended record
    nextRecord := writer.nextRecord + record.count }

/-- What a writer appends for a call that it does not refuse. -/
theorem record_eq_ok {writer : Writer} {layout : RunLayout} {step : UInt32} {snapshot : Snapshot}
    {record : StepRecord} (made : writer.record layout step snapshot = .ok record) :
    step < layout.stepCount ∧ snapshot.count ≤ TrajectoryFile.maxCount ∧
      ∀ start, writer.nextRecord = UInt64.ofNat start →
        WriteCall.record layout writer.policy start ⟨step, snapshot⟩ = .ok record := by
  unfold Writer.record at made
  split at made
  · cases made
  · next inside =>
    split at made
    · cases made
    · next small =>
      refine ⟨UInt32.not_le.1 inside, Nat.not_lt.1 small, fun start begins => ?_⟩
      rw [WriteCall.record, ← begins]
      exact made

/-- On a disk that refuses nothing a call is refused by the writer and changes nothing, or it
appends one record to the file of the writer. -/
theorem write_on {disk : Disk} (reliable : disk.IsReliable) (writer : Writer) (layout : RunLayout)
    (step : UInt32) (snapshot : Snapshot) :
    (∃ e, writer.write layout step snapshot disk = (.error e, writer, disk)) ∨
    ∃ record after, writer.record layout step snapshot = .ok record ∧
      writer.file.check record = .ok () ∧
      writer.write layout step snapshot disk =
        (.ok (writer.nextRecord, writer.nextRecord + record.count), writer.advanced record, after) ∧
      after.IsReliable ∧
      after.content writer.file.id =
        Write.applyAll (writer.file.appendWrites record) (disk.content writer.file.id) ∧
      ∀ other ≠ writer.file.id, after.content other = disk.content other := by
  unfold write
  cases made : writer.record layout step snapshot with
  | error e => exact .inl ⟨e, rfl⟩
  | ok record =>
    rcases TrajectoryFile.append_on reliable writer.file record with
      ⟨e, -, refused⟩ | ⟨checked, after, appended, rest⟩
    · exact .inl ⟨e, by simp only [refused]⟩
    · exact .inr ⟨record, after, rfl, checked, by simp only [appended, advanced], rest⟩

/-- A run keeps the file of its writer, which never gets shorter. -/
theorem length_le_writeAll {layout : RunLayout} {calls accepted : List WriteCall}
    {writer finish : Writer} {disk last : Disk} (reliable : disk.IsReliable)
    (run : writeAll layout calls writer disk = (accepted, finish, last)) :
    (disk.content writer.file.id).length ≤ (last.content finish.file.id).length := by
  induction calls generalizing writer disk accepted with
  | nil =>
    cases run
    exact Nat.le_refl _
  | cons call calls ih =>
    rw [writeAll] at run
    rcases write_on reliable writer layout call.step call.snapshot with
      ⟨e, refused⟩ | ⟨record, after, -, -, wrote, reliable, content, -⟩
    · simp only [refused] at run
      exact ih reliable run
    · simp only [wrote] at run
      cases others : writeAll layout calls (writer.advanced record) after with
      | mk rest outcome =>
        rw [others] at run
        cases run
        -- The file is that of the writer before, and no write makes it shorter.
        have grown := Write.length_le_applyAll (writer.file.appendWrites record)
          (disk.content writer.file.id)
        rw [← content] at grown
        have later := ih reliable others
        exact Nat.le_trans grown later

/-! ## The invariant of a run -/

/-- What the file of a writer holds after records were appended. -/
def image (writer : Writer) (layout : RunLayout) (schema : FileSchema) (format : FileFormat)
    (records : List StepRecord) : FileImage where
  format
  codec := writer.policy.method
  stepCount := layout.stepCount
  block := schema.encode
  records

/-- What holds of a writer and the disk after calls were accepted. -/
structure Holds (layout : RunLayout) (schema : FileSchema) (format : FileFormat)
    (accepted : List WriteCall) (records : List StepRecord) (writer : Writer) (disk : Disk) :
    Prop where
  reliable : disk.IsReliable
  /-- The file has the bytes of the image. -/
  content : disk.content writer.file.id = (writer.image layout schema format records).bytes
  /-- Header and end in memory are those of the image. -/
  file : writer.file.Represents (writer.image layout schema format records)
  /-- The records are those of the accepted calls. -/
  records : WriteCall.records layout writer.policy 0 accepted = .ok records
  /-- The next record is the one after all accepted ones. -/
  nextRecord : writer.nextRecord = UInt64.ofNat (WriteCall.recordTotal accepted)
  /-- No accepted call has too many particles. -/
  counts : ∀ call ∈ accepted, call.snapshot.count ≤ TrajectoryFile.maxCount

/-- An accepted call keeps the invariant, as long as the length of the file is a word. -/
theorem holds_write {layout : RunLayout} {schema : FileSchema} {format : FileFormat}
    {accepted : List WriteCall} {records : List StepRecord} {writer : Writer} {disk after : Disk}
    {call : WriteCall} {record : StepRecord}
    (holds : writer.Holds layout schema format accepted records disk)
    (made : writer.record layout call.step call.snapshot = .ok record)
    (checked : writer.file.check record = .ok ()) (reliable : after.IsReliable)
    (content : after.content writer.file.id =
      Write.applyAll (writer.file.appendWrites record) (disk.content writer.file.id))
    (room : (after.content writer.file.id).length < 2 ^ 64) :
    (writer.advanced record).Holds layout schema format (accepted ++ [call]) (records ++ [record])
      after := by
  -- The bound on the file after the call bounds it before the call.
  have before : (writer.image layout schema format records).bytes.length < 2 ^ 64 := by
    rw [← holds.content]
    refine Nat.lt_of_le_of_lt ?_ room
    rw [content]
    exact Write.length_le_applyAll _ _
  have inside := TrajectoryFile.inside_of_check holds.file checked
  have bytes : after.content writer.file.id =
      ((writer.image layout schema format records).append record).bytes := by
    rw [content, holds.content]
    exact TrajectoryFile.applyAll_appendWrites holds.file before inside
  rw [bytes] at room
  obtain ⟨-, small, own⟩ := record_eq_ok made
  have next : call.record layout writer.policy (WriteCall.recordTotal accepted) = .ok record :=
    own _ holds.nextRecord
  obtain ⟨-, -, count, -, -⟩ := WriteCall.record_eq_ok next
  refine ⟨reliable, bytes, TrajectoryFile.represents_append holds.file room inside, ?_, ?_, ?_⟩
  · exact WriteCall.records_concat.2 ⟨records, record, holds.records, next, rfl⟩
  · rw [advanced, holds.nextRecord, count, ← UInt64.ofNat_add, WriteCall.recordTotal_concat]
  · intro other mem
    rcases List.mem_append.1 mem with mem | mem
    · exact holds.counts other mem
    · obtain rfl := List.mem_singleton.1 mem
      exact small

/-- A run keeps the invariant: whatever calls are made, in whatever order, the file holds the
records of the accepted ones. -/
theorem holds_writeAll {layout : RunLayout} {schema : FileSchema} {format : FileFormat}
    {calls earlier accepted : List WriteCall} {records : List StepRecord} {writer finish : Writer}
    {disk last : Disk} (holds : writer.Holds layout schema format earlier records disk)
    (run : writeAll layout calls writer disk = (accepted, finish, last))
    (room : (last.content finish.file.id).length < 2 ^ 64) :
    finish.policy = writer.policy ∧
      ∃ more, finish.Holds layout schema format (earlier ++ accepted) (records ++ more) last := by
  -- The induction is on the calls that are left; the invariant speaks of those that were accepted.
  induction calls generalizing writer disk earlier records accepted with
  | nil =>
    cases run
    refine ⟨rfl, [], ?_⟩
    rw [List.append_nil, List.append_nil]
    exact holds
  | cons call calls ih =>
    rw [writeAll] at run
    rcases write_on holds.reliable writer layout call.step call.snapshot with
      ⟨e, refused⟩ | ⟨record, after, made, checked, wrote, reliable, content, -⟩
    · simp only [refused] at run
      exact ih holds run
    · simp only [wrote] at run
      cases others : writeAll layout calls (writer.advanced record) after with
      | mk rest outcome =>
        rw [others] at run
        cases run
        -- The file only grows, so its length is a word all along if it is one in the end.
        have grown := length_le_writeAll reliable others
        have short := Nat.lt_of_le_of_lt grown room
        obtain ⟨same, more, kept⟩ :=
          ih (holds_write holds made checked reliable content short) others
        refine ⟨same, record :: more, ?_⟩
        rw [List.append_assoc, List.append_assoc] at kept
        exact kept

/-- The header in memory counts the records of the accepted calls. -/
theorem recordLength_of_holds {layout : RunLayout} {schema : FileSchema} {format : FileFormat}
    {accepted : List WriteCall} {records : List StepRecord} {writer : Writer} {disk : Disk}
    (holds : writer.Holds layout schema format accepted records disk) :
    writer.file.header.recordLength = UInt64.ofNat (WriteCall.recordTotal accepted) := by
  rw [holds.file.header]
  -- The counter is that of the last record, which ends where the sum of all counts is.
  show records.foldl (fun _ record => record.recordStart + record.count) 0 = _
  rcases List.eq_nil_or_concat accepted with rfl | ⟨earlier, last, split⟩
  · obtain rfl : [] = records := by simpa [WriteCall.records] using holds.records
    rfl
  · rw [List.concat_eq_append] at split
    subst split
    obtain ⟨others, record, -, made, rfl⟩ := WriteCall.records_concat.1 holds.records
    obtain ⟨-, -, count, start, -⟩ := WriteCall.record_eq_ok made
    rw [List.foldl_append, List.foldl_cons, List.foldl_nil, count, start, ← UInt64.ofNat_add,
      WriteCall.recordTotal_concat]

/-- A new writer has accepted nothing. -/
theorem holds_create {path : Path} {population : Population} {layout : RunLayout}
    {schema : FileSchema} {format : FileFormat} {policy : CompressionPolicy} {disk after : Disk}
    {writer : Writer} (reliable : disk.IsReliable)
    (made : (create path population layout schema format policy).on disk = (.ok writer, after)) :
    after.IsReliable ∧ writer.policy = policy ∧
      ((after.content writer.file.id).length < 2 ^ 64 →
        writer.Holds layout schema format [] [] after) := by
  unfold create at made
  obtain ⟨file, opened, first, made⟩ := Action.exists_of_on_bind_ok made
  obtain ⟨reliable, content, represents⟩ := TrajectoryFile.represents_create reliable first
  cases made
  refine ⟨reliable, rfl, fun room => ?_⟩
  replace room : (after.content file.id).length < 2 ^ 64 := room
  rw [content] at room
  exact ⟨reliable, content, represents room, rfl, rfl, fun call mem => by cases mem⟩

/-- A whole run from a new file on: the file holds the records of the accepted calls. -/
theorem holds_of_run {path : Path} {population : Population} {layout : RunLayout}
    {schema : FileSchema} {format : FileFormat} {policy : CompressionPolicy}
    {disk start last : Disk} {writer finish : Writer} {calls accepted : List WriteCall}
    (reliable : disk.IsReliable)
    (made : (create path population layout schema format policy).on disk = (.ok writer, start))
    (run : writeAll layout calls writer start = (accepted, finish, last))
    (room : (last.content finish.file.id).length < 2 ^ 64) :
    finish.policy = policy ∧
      ∃ records, finish.Holds layout schema format accepted records last := by
  obtain ⟨reliable, policy, holds⟩ := holds_create reliable made
  have begun := holds (Nat.lt_of_le_of_lt (length_le_writeAll reliable run) room)
  obtain ⟨same, records, kept⟩ := holds_writeAll begun run room
  exact ⟨same.trans policy, records, kept⟩

end Writer

/-! ## A small run -/

namespace SmallRun

def time : Timestamp := ⟨2020, 1, 2, 3, 4, 5, 0⟩

def layout : RunLayout := ⟨time, 3, false, standardManifest⟩

theorem plan_eq_ok :
    Registry.default.plan ⟨some time, some 3, false, none⟩ false = .ok layout := rfl

def schema : FileSchema := layout.fileSchema {} time

def snapshot (masses : List Binary32) : Snapshot where
  population := .base
  time
  count := masses.length
  arrays := [("mass", ⟨.scalar, ⟨.float32, masses.toArray⟩⟩)]

/-- Particles of one gram and of two. -/
def pair : Snapshot := snapshot [⟨0x3F800000⟩, ⟨0x40000000⟩]

/-- A call without particles, one for a step that is not there, and one with two particles, whose
masses are all that is known of them. The last of the three steps is left out. -/
def calls : List WriteCall := [⟨0, snapshot []⟩, ⟨7, pair⟩, ⟨1, pair⟩]

def accepted : List WriteCall := [⟨0, snapshot []⟩, ⟨1, pair⟩]

def disk : Disk := .ofDirectories [] []

theorem reliable : disk.IsReliable := fun outage mem => by cases mem

def path : Path := ⟨"run"⟩

def image : FileImage := TrajectoryFile.newImage schema .classic .stored 3

def start : Disk := TrajectoryFile.diskAfterCreate disk ["run"] image

def writer : Writer where
  file := ⟨0, path, image.header, image.header.dataOffset⟩
  population := .base
  policy := .ofCodec .stored
  nextRecord := 0

theorem checkPath_path : Disk.checkPath path = .ok () :=
  Disk.checkPath_eq_ok_iff.2 ⟨by simp [path], by decide +kernel, by decide +kernel⟩

theorem findLast_path : disk.afterRequest.findLast path = .ok ([], some "run") := by
  have steps : Disk.steps path.text = ["run"] := by decide +kernel
  have origin : Disk.start disk.afterRequest.workingDirectory path.text = [] := by decide +kernel
  have noSlash : path.text.toList.getLast? ≠ some '/' := by decide +kernel
  have root : disk.afterRequest.walk true Disk.maxLinks [] [] = .ok (.node [] .directory) := by
    rw [Disk.walk]
  simp [Disk.findLast, checkPath_path, steps, origin, noSlash, root, bind, Except.bind, pure,
    Except.pure]

theorem findVacant_path : disk.afterRequest.findVacant path = .ok ["run"] := by
  have noSlash : ¬Disk.endsInSlash path := by decide +kernel
  have short : ¬Disk.maxNameLength < "run".utf8ByteSize := by decide +kernel
  have free : disk.afterRequest.node? ["run"] = none := rfl
  simp [Disk.findVacant, findLast_path, noSlash, short, free, bind, Except.bind, pure, Except.pure]

theorem create_on :
    (Writer.create path .base layout schema .classic (.ofCodec .stored)).on disk =
      (.ok writer, start) := by
  rw [Writer.create, Action.on_bind_ok (TrajectoryFile.create_on reliable findVacant_path _ _ _ _)]
  rfl

def finish : Writer := (Writer.writeAll layout calls writer start).2.1

def final : Disk := (Writer.writeAll layout calls writer start).2.2

theorem writeAll_eq : Writer.writeAll layout calls writer start = (accepted, finish, final) := rfl

set_option maxRecDepth 4000 in
theorem length_lt : (final.content finish.file.id).length < 2 ^ 63 := by decide +kernel

end SmallRun

end RaggedTrajectory
