import RaggedTrajectory.Proofs.File.Torn
import RaggedTrajectory.Proofs.Reader.RoundTrip

/-!
# A run that is interrupted keeps its steps

Wherever an append is cut short, the file can be opened, the steps that were written before are read
as before, and of the others at most the step of the append has another entry. A call of the writer
on a disk that refuses requests leaves the file as one of these cuts does.

* `FileImage.exists_reader_of_resembles`: a file that resembles an image can be opened.
* `Writer.exists_applyCut_of_write`: what a call leaves, whatever the disk refuses.
* `Writer.readStep_of_cut`: crash safety of an append, after any run.
-/

namespace RaggedTrajectory

namespace FileImage

/-- Bytes that resemble an image can be opened, and the reader has the chunks and, but for one step,
the entries of the image. -/
theorem exists_reader_of_resembles {image : FileImage} {step : UInt32} {bytes : Bytes}
    {schema : FileSchema} {manifest : Manifest} (overflow : Overflow)
    (resembles : image.Resembles step bytes) (room : image.bytes.length < 2 ^ 64)
    (decoded : FileSchema.decode image.block = .ok schema)
    (fields : schema.manifest = .ok manifest) :
    ∃ reader, Reader.ofBytes overflow bytes = .ok reader ∧ reader.manifest = manifest ∧
      image.HasChunks reader ∧
      ∀ other ≠ step, reader.entries[other.toNat]? = image.table[other.toNat]? := by
  obtain ⟨recordLength, stepsWritten, table, rest, entry, within, length, entries, rfl⟩ := resembles
  have valid := validate_counters overflow room recordLength within
  refine ⟨_, Reader.ofBytes_append _ valid rfl (toNat_schemaLength room) (toNat_tableOffset room)
    length decoded fields, rfl, ?_, fun other different => ?_⟩
  · let header : Header := { image.header with recordLength, stepsWritten }
    refine ⟨header.encode ++ (image.block ++ table), rest, ?_, ?_⟩
    · rw [List.length_append, List.length_append, Header.length_encode, length, dataOffset,
        tableOffset, Nat.add_assoc]
    · simp only [List.append_assoc]
      rfl
  · have apart : step.toNat ≠ other.toNat := fun same => different (UInt32.toNat_inj.1 same.symm)
    show (StepTable.decode image.stepCount.toNat table)[other.toNat]? = _
    rw [entries, List.getElem?_set_ne apart]

end FileImage

namespace Writer

/-- After a run, a file that resembles the file of the run can be opened, all steps but one are read
as before, and of the steps without an accepted call all but that one are unwritten. -/
theorem readStep_of_resembles {layout : RunLayout} {globals : GlobalAttributes}
    {created : Timestamp} {format : FileFormat} {accepted : List WriteCall}
    {records : List StepRecord} {writer : Writer} {disk : Disk} {step : UInt32} {bytes : Bytes}
    (overflow : Overflow) (planned : Registry.IsPlanned layout.manifest)
    (holds : writer.Holds layout (layout.fileSchema globals created) format accepted records disk)
    (room : (disk.content writer.file.id).length < 2 ^ 64)
    (fits : ∀ call ∈ accepted, call.snapshot.count * layout.manifest.stride < 2 ^ 64)
    (resembles : (writer.image layout (layout.fileSchema globals created) format records).Resembles
      step bytes) :
    ∃ before after, Reader.ofBytes overflow (disk.content writer.file.id) = .ok before ∧
      Reader.ofBytes overflow bytes = .ok after ∧
      (∀ call ∈ accepted, call.step ≠ step →
        ∃ result, before.readStep call.step = .ok result ∧
          after.readStep call.step = .ok result) ∧
      ∀ other < layout.stepCount, other ≠ step → after.entry other = before.entry other ∧
        ((∀ call ∈ accepted, call.step ≠ other) → after.entry other = .ok .unwritten) := by
  have decoded := FileSchema.decode_encode (layout.isExact_fileSchema planned globals created)
  have fields := layout.manifest_fileSchema planned.distinct globals created
  have chunks := FileImage.hasChunks_reader
    (writer.image layout (layout.fileSchema globals created) format records)
    (layout.fileSchema globals created) layout.manifest.asDeclared
  have length := room
  rw [holds.content] at length
  obtain ⟨after, opened, manifest, kept, entries⟩ :=
    FileImage.exists_reader_of_resembles overflow resembles length decoded fields
  refine ⟨_, after, ofBytes_of_holds overflow planned holds room, opened,
    fun call mem different => ?_, fun other below different => ?_⟩
  · rcases WriteCall.exists_last_or_absent accepted call.step with
      ⟨earlier, last, later, split, isLast, equal⟩ | absent
    · -- Old and new reader have the chunk of the last call at one place, by the same entry.
      obtain ⟨_, _, -, readable⟩ := readStep_of_holds holds room split isLast
        (fits last (split ▸ List.mem_append_cons_self))
      rw [← equal] at different ⊢
      exact ⟨_, readable _ rfl chunks rfl, readable after manifest kept (entries _ different)⟩
    · exact absurd rfl (absent call mem)
  · have found := FileImage.getElem?_table
      (writer.image layout (layout.fileSchema globals created) format records) below
    have read := Reader.entry_eq_ok_iff.2 ((entries other different).trans found)
    refine ⟨read.trans (Reader.entry_eq_ok_iff.2 found).symm, fun absent => ?_⟩
    rw [read, FileImage.entry_eq_unwritten (WriteCall.step_ne_of_records holds.records absent)]

/-- A call after a run leaves the file as some cut of its append does, whatever the disk refuses. -/
theorem exists_applyCut_of_write {layout : RunLayout} {schema : FileSchema} {format : FileFormat}
    {accepted : List WriteCall} {records : List StepRecord} {writer : Writer} {disk faulty : Disk}
    {step : UInt32} {snapshot : Snapshot} {record : StepRecord}
    (holds : writer.Holds layout schema format accepted records disk)
    (room : (disk.content writer.file.id).length < 2 ^ 64)
    (appended : writer.record layout step snapshot = .ok record)
    (same : faulty.content writer.file.id = disk.content writer.file.id) :
    ∃ budget, (writer.write layout step snapshot faulty).2.2.content writer.file.id =
      Write.applyCut budget (writer.file.appendWrites record) (disk.content writer.file.id) := by
  obtain ⟨inside, -, own⟩ := record_eq_ok appended
  obtain rfl : record.step = step := (WriteCall.record_eq_ok (own _ holds.nextRecord)).1
  -- Of a call only the append touches the disk.
  have kept : (writer.write layout record.step snapshot faulty).2.2 =
      (writer.file.append record faulty).2.2 := by
    simp only [write, appended]
    split <;> next ran => rw [ran]
  rw [holds.content] at room same ⊢
  rw [kept]
  exact TrajectoryFile.exists_applyCut_of_append holds.file room inside same

/-- Crash safety of an append. After any run that was planned, a call for a step makes the writer
append a record. A disk may refuse any request of this call: of the three writes of the append some
number of bytes is in the file then. Whatever that number is, from none to all, the file can be
opened, every step with an accepted call is read as before, unless it is the step of the append
itself, and the entries of all other steps are what they were: where there was no accepted call,
unwritten. -/
theorem readStep_of_cut (overflow : Overflow) {parameters : RunParameters} {extended : Bool}
    {layout : RunLayout} {path : Path} {population : Population} {globals : GlobalAttributes}
    {created : Timestamp} {format : FileFormat} {policy : CompressionPolicy}
    {disk start final : Disk} {writer finish : Writer} {calls accepted : List WriteCall}
    {step : UInt32} {snapshot : Snapshot} {record : StepRecord}
    (planned : Registry.default.plan parameters extended = .ok layout)
    (reliable : disk.IsReliable)
    (made : (create path population layout (layout.fileSchema globals created) format policy).on
      disk = (.ok writer, start))
    (run : writeAll layout calls writer start = (accepted, finish, final))
    (room : (final.content finish.file.id).length < 2 ^ 63)
    (memory : ∀ call ∈ accepted, call.snapshot.count * layout.manifest.stride < 2 ^ 63)
    (appended : finish.record layout step snapshot = .ok record) :
    (∀ faulty : Disk, faulty.content finish.file.id = final.content finish.file.id →
      ∃ budget, (finish.write layout step snapshot faulty).2.2.content finish.file.id =
        Write.applyCut budget (finish.file.appendWrites record)
          (final.content finish.file.id)) ∧
    ∀ budget, ∃ before after,
      Reader.ofBytes overflow (final.content finish.file.id) = .ok before ∧
      Reader.ofBytes overflow (Write.applyCut budget (finish.file.appendWrites record)
        (final.content finish.file.id)) = .ok after ∧
      (∀ call ∈ accepted, call.step ≠ step →
        ∃ result, before.readStep call.step = .ok result ∧
          after.readStep call.step = .ok result) ∧
      ∀ other < layout.stepCount, other ≠ step → after.entry other = before.entry other ∧
        ((∀ call ∈ accepted, call.step ≠ other) → after.entry other = .ok .unwritten) := by
  have short : (final.content finish.file.id).length < 2 ^ 64 := Nat.lt_trans room (by decide)
  obtain ⟨-, records, holds⟩ := holds_of_run reliable made run short
  have fits : ∀ call ∈ accepted, call.snapshot.count * layout.manifest.stride < 2 ^ 64 :=
    fun call mem => Nat.lt_trans (memory call mem) (by decide)
  refine ⟨fun faulty => exists_applyCut_of_write holds short appended, fun budget => ?_⟩
  obtain ⟨inside, -, own⟩ := record_eq_ok appended
  have same : record.step = step := (WriteCall.record_eq_ok (own _ holds.nextRecord)).1
  have length := short
  rw [holds.content] at length
  have resembles :=
    TrajectoryFile.resembles_applyCut holds.file length (same ▸ inside) budget
  rw [← holds.content, same] at resembles
  exact readStep_of_resembles overflow (Registry.isPlanned_of_plan planned) holds short fits
    resembles

/-- The small run goes on with its last step, on a disk that grants the write of the chunk and then
is full in the middle of the table entry. -/
theorem readStep_cut_smallRun :
    let faulty : Disk := { SmallRun.final with
      outages := [none, some ⟨.other "No space left on device (os error 28)", 17⟩] }
    ∃ record, SmallRun.finish.record SmallRun.layout 2 SmallRun.pair = .ok record ∧
      ∃ after result, Reader.ofBytes .stops
          ((SmallRun.finish.write SmallRun.layout 2 SmallRun.pair faulty).2.2.content
            SmallRun.finish.file.id) = .ok after ∧
        after.readStep 1 = .ok result := by
  intro faulty
  obtain ⟨record, appended⟩ : ∃ record,
      SmallRun.finish.record SmallRun.layout 2 SmallRun.pair = .ok record := ⟨_, rfl⟩
  obtain ⟨refused, cut⟩ := readStep_of_cut .stops SmallRun.plan_eq_ok SmallRun.reliable
    SmallRun.create_on SmallRun.writeAll_eq SmallRun.length_lt (by decide) appended
  obtain ⟨budget, left⟩ := refused faulty rfl
  obtain ⟨before, after, -, opened, kept, -⟩ := cut budget
  obtain ⟨result, -, read⟩ := kept ⟨1, SmallRun.pair⟩ (by simp [SmallRun.accepted]) (by decide)
  rw [left]
  exact ⟨record, appended, after, result, opened, read⟩

end Writer

end RaggedTrajectory
