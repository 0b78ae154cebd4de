import RaggedTrajectory.Proofs.File.Run
import RaggedTrajectory.Proofs.Reader.Opening
import RaggedTrajectory.Proofs.Reader.Ranges

/-!
# What was written is read back

A file that holds the records of accepted calls can be opened, and a step of it is read as what the
last accepted call for it recorded: the values of every field, the time, and the range of records
behind those of all calls accepted before. A step without an accepted call is read as unwritten.

* `Reader.readStep_of_record`: the record of a call is read back.
* `Writer.readStep_of_run`: the round trip over whole runs.
-/

namespace RaggedTrajectory

namespace StepRecord

/-- A number of particles that a table entry can hold is read from it. -/
theorem count_entryAt {record : StepRecord} {count : Nat}
    (counted : record.count = UInt64.ofNat count) (small : count ≤ TrajectoryFile.maxCount)
    (offset : Nat) :
    (record.entryAt offset).count = UInt64.ofNat count ∧
      (record.entryAt offset).particleCount.toInt = count := by
  have bound : count < 2 ^ 31 := Nat.lt_succ_of_le small
  -- The entry has a signed word of 32 bits, which is widened with its sign when it is read.
  have narrow : (record.entryAt offset).particleCount = Int32.ofNat count := by
    rw [entryAt, counted]
    simp
  have wide : (Int32.ofNat count).toInt64 = Int64.ofNat count :=
    Int32.toInt64_ofNat' (by rw [Int32.toInt_maxValue]; omega)
  refine ⟨?_, ?_⟩
  · rw [StepEntry.count, narrow, wide, Int64.toUInt64_ofNat']
  · rw [narrow, Int32.toInt_ofNat_of_lt bound]

/-- The region of an entry is its chunk, if the chunks lie behind a front of the right length. -/
theorem region_chunk {front : Bytes} (before : List StepRecord) (record : StepRecord)
    (after : List StepRecord) (rest : Bytes) (behind : Header.size ≤ front.length)
    (room : front.length + (chunks before).length + record.chunk.length < 2 ^ 64) :
    Bytes.region (front ++ (chunks (before ++ record :: after) ++ rest))
      (record.entryAt (front.length + (chunks before).length)).chunkOffset
      (record.entryAt (front.length + (chunks before).length)).chunkLength "chunk" =
        .ok record.chunk := by
  have split : front ++ (chunks (before ++ record :: after) ++ rest) =
      (front ++ chunks before) ++ (record.chunk ++ (chunks after ++ rest)) := by
    rw [chunks_append, chunks_cons]
    simp only [List.append_assoc]
  rw [split]
  refine Bytes.region_append _ "chunk" ?_ ?_ ?_
  · rw [List.length_append]
    exact UInt64.toNat_ofNat_of_lt' (Nat.lt_of_le_of_lt (Nat.le_add_right _ _) room)
  · exact UInt64.toNat_ofNat_of_lt' (Nat.lt_of_le_of_lt (Nat.le_add_left _ _) room)
  · rw [List.length_append]
    omega

end StepRecord

namespace Reader

/-- A record that a call made is read back as what the call recorded. -/
theorem readStep_of_record {reader : Reader} {layout : RunLayout} {policy : CompressionPolicy}
    {start offset : Nat} {call : WriteCall} {record : StepRecord}
    (made : call.record layout policy start = .ok record)
    (manifest : reader.manifest = layout.manifest.asDeclared)
    (small : call.snapshot.count ≤ TrajectoryFile.maxCount)
    (fits : call.snapshot.count * layout.manifest.stride < 2 ^ 64)
    (length : record.chunk.length < 2 ^ 64)
    (found : reader.entries[call.step.toNat]? = some (record.entryAt offset))
    (region : reader.bytes.region (record.entryAt offset).chunkOffset
      (record.entryAt offset).chunkLength "chunk" = .ok record.chunk) :
    reader.readStep call.step =
      .ok (record.entryAt offset, Chunk.recorded layout.manifest call.snapshot) := by
  obtain ⟨-, -, counted, begins, encoded⟩ := WriteCall.record_eq_ok made
  have word : call.snapshot.count < 2 ^ 64 := Nat.lt_of_le_of_lt small (by decide)
  obtain ⟨header, decoded, step, first, count⟩ := Chunk.decode_encode encoded word fits length
  -- Chunk and entry agree on the step, the first record and the number of records.
  refine readStep_of_chunk found rfl region ?_ ⟨step, ?_, ?_⟩
  · rw [manifest, Chunk.decode_asDeclared]
    exact decoded
  · exact first.trans begins.symm
  · rw [count, (StepRecord.count_entryAt counted small offset).1]

end Reader

/-! ## Reading an image -/

namespace FileImage

/-- The reader that opening the bytes of an image gives. -/
def reader (image : FileImage) (schema : FileSchema) (manifest : Manifest) : Reader :=
  ⟨image.bytes, image.header, schema, manifest, image.table⟩

/-- Header, block and table of an image can be opened, and the table is read back, whatever is in
the place of the chunks. -/
theorem ofBytes_front {image : FileImage} {schema : FileSchema} {manifest : Manifest}
    (overflow : Overflow) (within : image.IsWithinAxis) (room : image.bytes.length < 2 ^ 64)
    (decoded : FileSchema.decode image.block = .ok schema)
    (fields : schema.manifest = .ok manifest) (data : Bytes) :
    Reader.ofBytes overflow (image.header.encode ++ (image.block ++ (image.tableBytes ++ data))) =
      .ok { image.reader schema manifest with
        bytes := image.header.encode ++ (image.block ++ (image.tableBytes ++ data)) } := by
  have table : StepTable.decode image.header.stepCount.toNat image.tableBytes = image.table := by
    have whole := StepTable.decode_flatMap_encode image.table []
    rw [List.append_nil, length_table] at whole
    exact whole
  rw [Reader.ofBytes_append _ (validate_header overflow room within) rfl (toNat_schemaLength room)
    (toNat_tableOffset room) image.length_tableBytes decoded fields, table]
  rfl

/-- The bytes of an image can be opened. -/
theorem ofBytes_bytes {image : FileImage} {schema : FileSchema} {manifest : Manifest}
    (overflow : Overflow) (within : image.IsWithinAxis) (room : image.bytes.length < 2 ^ 64)
    (decoded : FileSchema.decode image.block = .ok schema)
    (fields : schema.manifest = .ok manifest) :
    Reader.ofBytes overflow image.bytes = .ok (image.reader schema manifest) :=
  ofBytes_front overflow within room decoded fields (StepRecord.chunks image.records)

/-- A reader whose file has the chunks of the image at their places, whatever else it has. -/
def HasChunks (image : FileImage) (reader : Reader) : Prop :=
  ∃ front rest, front.length = image.dataOffset ∧
    reader.bytes = front ++ (StepRecord.chunks image.records ++ rest)

theorem hasChunks_reader (image : FileImage) (schema : FileSchema) (manifest : Manifest) :
    image.HasChunks (image.reader schema manifest) := by
  refine ⟨image.header.encode ++ (image.block ++ image.tableBytes), [], image.length_front, ?_⟩
  rw [reader, bytes, List.append_nil]
  simp only [List.append_assoc]

/-- The region of the entry of a record is its chunk. -/
theorem region_chunk {image : FileImage} {reader : Reader} (chunks : image.HasChunks reader)
    {before after : List StepRecord} {record : StepRecord}
    (records : image.records = before ++ record :: after) (room : image.bytes.length < 2 ^ 64) :
    reader.bytes.region
      (record.entryAt (image.dataOffset + (StepRecord.chunks before).length)).chunkOffset
      (record.entryAt (image.dataOffset + (StepRecord.chunks before).length)).chunkLength "chunk" =
        .ok record.chunk := by
  obtain ⟨front, rest, length, split⟩ := chunks
  have end_le := chunk_le_length records
  have behind : Header.size ≤ image.dataOffset := by
    rw [dataOffset, tableOffset]
    omega
  rw [split, records, ← length]
  exact StepRecord.region_chunk before record after rest (by omega) (by omega)

end FileImage

namespace Writer

section Holds

variable {layout : RunLayout} {schema : FileSchema} {format : FileFormat}
  {accepted : List WriteCall} {records : List StepRecord} {writer : Writer} {disk : Disk}

/-- A file of a planned run can be opened after any accepted calls. -/
theorem ofBytes_of_holds (overflow : Overflow) (planned : Registry.IsPlanned layout.manifest)
    {globals : GlobalAttributes} {created : Timestamp}
    (holds : writer.Holds layout (layout.fileSchema globals created) format accepted records disk)
    (room : (disk.content writer.file.id).length < 2 ^ 64) :
    Reader.ofBytes overflow (disk.content writer.file.id) =
      .ok ((writer.image layout (layout.fileSchema globals created) format records).reader
        (layout.fileSchema globals created) layout.manifest.asDeclared) := by
  have decoded := FileSchema.decode_encode (layout.isExact_fileSchema planned globals created)
  have fields := layout.manifest_fileSchema planned.distinct globals created
  rw [holds.content] at room ⊢
  exact FileImage.ofBytes_bytes overflow holds.file.within room decoded fields

/-- The last accepted call for a step is read back, by any reader that has the chunks at their
places and the entry of the step. -/
theorem readStep_of_holds (holds : writer.Holds layout schema format accepted records disk)
    (room : (disk.content writer.file.id).length < 2 ^ 64) {before after : List WriteCall}
    {call : WriteCall} (split : accepted = before ++ call :: after)
    (last : ∀ later ∈ after, later.step ≠ call.step)
    (fits : call.snapshot.count * layout.manifest.stride < 2 ^ 64) :
    ∃ record offset,
      call.record layout writer.policy (WriteCall.recordTotal before) = .ok record ∧
      ∀ reader : Reader, reader.manifest = layout.manifest.asDeclared →
        (writer.image layout schema format records).HasChunks reader →
        reader.entries[call.step.toNat]? =
          (writer.image layout schema format records).table[call.step.toNat]? →
        reader.readStep call.step =
          .ok (record.entryAt offset, Chunk.recorded layout.manifest call.snapshot) := by
  obtain ⟨front, record, back, rfl, made, apart⟩ :=
    WriteCall.exists_record_of_split holds.records split last
  have step := (WriteCall.record_eq_ok made).1
  have within := holds.file.within
  have small : call.snapshot.count ≤ TrajectoryFile.maxCount :=
    holds.counts call (split ▸ List.mem_append_cons_self)
  rw [holds.content] at room
  have own : (writer.image layout schema format (front ++ record :: back)).records =
    front ++ record :: back := rfl
  -- Only where the record stands in the image matters, not what the image was made from.
  generalize writer.image layout schema format (front ++ record :: back) = image at *
  have member : record ∈ image.records := own ▸ List.mem_append_cons_self
  have end_le := FileImage.chunk_le_length own
  refine ⟨record, image.dataOffset + (StepRecord.chunks front).length, made,
    fun reader manifest chunks found => ?_⟩
  refine Reader.readStep_of_record made manifest small fits (by omega) ?_
    (FileImage.region_chunk chunks own room)
  rw [found, ← step, FileImage.getElem?_table image (within record member),
    FileImage.entry_eq_entryAt own apart]

/-- What is read of the last accepted call for a step: its values, its time, its number of particles
and its range of records. -/
theorem exists_entry_of_holds (holds : writer.Holds layout schema format accepted records disk)
    (room : (disk.content writer.file.id).length < 2 ^ 64) {before after : List WriteCall}
    {call : WriteCall} (split : accepted = before ++ call :: after)
    (last : ∀ later ∈ after, later.step ≠ call.step)
    (fits : call.snapshot.count * layout.manifest.stride < 2 ^ 64)
    (total : WriteCall.recordTotal accepted < 2 ^ 64) :
    ∃ entry, ((writer.image layout schema format records).reader schema
        layout.manifest.asDeclared).readStep call.step =
          .ok (entry, Chunk.recorded layout.manifest call.snapshot) ∧
      entry.time = layout.elapsedSeconds call.snapshot.time ∧
      entry.particleCount.toInt = call.snapshot.count ∧ entry.EndsAtWord ∧
      entry.extent.1.toNat = WriteCall.recordTotal before ∧
      entry.extent.2.toNat = WriteCall.recordTotal before + call.snapshot.count := by
  obtain ⟨record, offset, own, readable⟩ := readStep_of_holds holds room split last fits
  have read := readable _ rfl (FileImage.hasChunks_reader _ schema layout.manifest.asDeclared) rfl
  obtain ⟨-, time, counted, begins, -⟩ := WriteCall.record_eq_ok own
  have member : call ∈ accepted := split ▸ List.mem_append_cons_self
  obtain ⟨count, particles⟩ :=
    StepRecord.count_entryAt counted (holds.counts call member) offset
  have sum : WriteCall.recordTotal before + call.snapshot.count < 2 ^ 64 := by
    rw [split, WriteCall.recordTotal_append, WriteCall.recordTotal_cons] at total
    omega
  have first : (record.entryAt offset).recordStart.toNat = WriteCall.recordTotal before := by
    show record.recordStart.toNat = _
    rw [begins]
    exact UInt64.toNat_ofNat_of_lt' (Nat.lt_of_le_of_lt (Nat.le_add_right _ _) sum)
  have number : (record.entryAt offset).count.toNat = call.snapshot.count := by
    rw [count]
    exact UInt64.toNat_ofNat_of_lt' (Nat.lt_of_le_of_lt (Nat.le_add_left _ _) sum)
  -- The records of the call end where those of all calls up to it do, which is a word.
  have ends : (record.entryAt offset).EndsAtWord := fun _ => by
    rw [first, number]
    exact sum
  refine ⟨_, read, time, particles, ends, first, ?_⟩
  rw [StepEntry.toNat_extent_snd rfl ends, first, number]

/-- A step without an accepted call is read as unwritten. -/
theorem readStep_of_holds_of_absent
    (holds : writer.Holds layout schema format accepted records disk) {step : UInt32}
    (inside : step < layout.stepCount) (absent : ∀ call ∈ accepted, call.step ≠ step) :
    ((writer.image layout schema format records).reader schema
      layout.manifest.asDeclared).readStep step =
        .ok (.unwritten, layout.manifest.fields.map fun field => .empty field.dtype) := by
  have found : (writer.image layout schema format records).table[step.toNat]? =
      some .unwritten := by
    rw [FileImage.getElem?_table _ inside,
      FileImage.entry_eq_unwritten (WriteCall.step_ne_of_records holds.records absent)]
  rw [Reader.readStep_of_unwritten found]
  simp [FileImage.reader, Manifest.asDeclared, Field.asDeclared, Field.boundTo]

end Holds

/-- The round trip over whole runs. A planned run makes a file on a disk that grants every request,
and calls its writer for whatever steps in whatever order, some of them in vain. Then the file can
be opened; each step is read as what the last accepted call for it recorded, and a step without one
as unwritten. There are fewer than `2 ^ 63` records, and a file, as well as the values that a call
puts together in memory, is shorter than `2 ^ 63` bytes. -/
theorem readStep_of_run (overflow : Overflow) {parameters : RunParameters} {extended : Bool}
    {layout : RunLayout} {path : Path} {population : Population} {globals : GlobalAttributes}
    {created : Timestamp} {format : FileFormat} {policy : CompressionPolicy}
    {disk start final : Disk} {writer finish : Writer} {calls accepted : List WriteCall}
    (planned : Registry.default.plan parameters extended = .ok layout)
    (reliable : disk.IsReliable)
    (made : (create path population layout (layout.fileSchema globals created) format policy).on
      disk = (.ok writer, start))
    (run : writeAll layout calls writer start = (accepted, finish, final))
    (total : WriteCall.recordTotal accepted < 2 ^ 63)
    (room : (final.content finish.file.id).length < 2 ^ 63)
    (memory : ∀ call ∈ accepted, call.snapshot.count * layout.manifest.stride < 2 ^ 63) :
    ∃ reader, Reader.ofBytes overflow (final.content finish.file.id) = .ok reader ∧
      (∀ before call after, accepted = before ++ call :: after →
        (∀ later ∈ after, later.step ≠ call.step) →
        ∃ entry, reader.readStep call.step =
            .ok (entry, Chunk.recorded layout.manifest call.snapshot) ∧
          entry.time = layout.elapsedSeconds call.snapshot.time ∧
          entry.particleCount.toInt = call.snapshot.count ∧
          ∃ range, entry.recordRange overflow = .ok range ∧
            range.1.toNat = WriteCall.recordTotal before ∧
            range.2.toNat = WriteCall.recordTotal before + call.snapshot.count) ∧
      ∀ step < layout.stepCount, (∀ call ∈ accepted, call.step ≠ step) →
        reader.readStep step =
          .ok (.unwritten, layout.manifest.fields.map fun field => .empty field.dtype) := by
  have short : (final.content finish.file.id).length < 2 ^ 64 := Nat.lt_trans room (by decide)
  obtain ⟨-, records, holds⟩ := holds_of_run reliable made run short
  refine ⟨_, ofBytes_of_holds overflow (Registry.isPlanned_of_plan planned) holds short, ?_,
    fun step inside absent => readStep_of_holds_of_absent holds inside absent⟩
  intro before call after split last
  have member : call ∈ accepted := split ▸ List.mem_append_cons_self
  have fits := Nat.lt_trans (memory call member) (show 2 ^ 63 < 2 ^ 64 by decide)
  obtain ⟨entry, read, time, count, ends, first, stop⟩ :=
    exists_entry_of_holds holds short split last fits (Nat.lt_trans total (by decide))
  exact ⟨entry, read, time, count, _, StepEntry.recordRange_of_endsAtWord ends, first, stop⟩

/-- In the small run the pair of particles is read back from the first record on, and the step that
was left out is unwritten. -/
theorem readStep_smallRun :
    ∃ reader, Reader.ofBytes .stops (SmallRun.final.content SmallRun.finish.file.id) = .ok reader ∧
      (∃ entry, reader.readStep 1 =
          .ok (entry, Chunk.recorded SmallRun.layout.manifest SmallRun.pair) ∧
        entry.particleCount.toInt = 2 ∧ ∃ range, entry.recordRange .stops = .ok range ∧
          range.1.toNat = 0 ∧ range.2.toNat = 2) ∧
      reader.readStep 2 =
        .ok (.unwritten, SmallRun.layout.manifest.fields.map fun field => .empty field.dtype) := by
  obtain ⟨reader, opened, written, unwritten⟩ := readStep_of_run .stops SmallRun.plan_eq_ok
    SmallRun.reliable SmallRun.create_on SmallRun.writeAll_eq (by decide) SmallRun.length_lt
    (by decide)
  obtain ⟨entry, read, -, count, range, own, first, stop⟩ :=
    written [⟨0, SmallRun.snapshot []⟩] ⟨1, SmallRun.pair⟩ [] rfl (by decide)
  exact ⟨reader, opened, ⟨entry, read, count, range, own, first, stop⟩,
    unwritten 2 (by decide) (by decide)⟩

end Writer

/-! ## The small run, read -/

namespace SmallRun

def records : List StepRecord :=
  (WriteCall.records layout finish.policy 0 accepted).toOption.getD []

theorem holds : finish.Holds layout schema .classic accepted records final := by
  obtain ⟨-, own, holds⟩ := Writer.holds_of_run reliable create_on writeAll_eq
    (Nat.lt_trans length_lt (by decide))
  have same : WriteCall.records layout finish.policy 0 accepted = .ok records := rfl
  cases holds.records.symm.trans same
  exact holds

def reader : Reader :=
  (finish.image layout schema .classic records).reader schema layout.manifest.asDeclared

theorem ofBytes_final (overflow : Overflow) :
    Reader.ofBytes overflow (final.content finish.file.id) = .ok reader :=
  Writer.ofBytes_of_holds overflow (Registry.isPlanned_of_plan plan_eq_ok) holds
    (Nat.lt_trans length_lt (by decide))

end SmallRun

end RaggedTrajectory
