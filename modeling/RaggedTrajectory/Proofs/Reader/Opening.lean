import RaggedTrajectory.Proofs.Chunk.RoundTrip
import RaggedTrajectory.Proofs.File.Image
import RaggedTrajectory.Proofs.Header.Regions
import RaggedTrajectory.Reader

/-!
# Opening a file that is made of its parts

A reader finds the schema block, the table and the chunks by the offsets in the header. A byte
string that is a valid header, the schema block, as many bytes of table as the header asks for, and
anything behind, can be opened. The table need not be one that a writer has finished: whatever its
bytes are, they are entries.

* `Reader.ofBytes_append`: the parts are found.
* `Reader.readEntry_eq_ok_iff`, `Reader.readStep_of_chunk`: a step whose chunk decodes can be read.
* `FileImage.validate_header`: the header of an image is valid.
-/

namespace RaggedTrajectory

namespace Bytes

/-- A region lies behind the header and before the end. -/
theorem region_eq_ok_iff {bytes part : Bytes} {offset length : UInt64} {name : String} :
    bytes.region offset length name = .ok part ↔
      offset.toNat + length.toNat ≤ bytes.length ∧ Header.size ≤ offset.toNat ∧
        part = bytes.slice offset.toNat length.toNat := by
  rw [region]
  split
  · next inside => simp [inside, eq_comm]
  · next outside =>
    constructor
    · intro found
      cases found
    · rintro ⟨before, behind, -⟩
      exact absurd ⟨before, behind⟩ outside

/-- A region behind a front of known length. -/
theorem region_append {front part : Bytes} (back : Bytes) {offset length : UInt64} (name : String)
    (start : offset.toNat = front.length) (size : length.toNat = part.length)
    (behind : Header.size ≤ front.length) :
    region (front ++ (part ++ back)) offset length name = .ok part := by
  rw [region_eq_ok_iff, start, size, List.length_append, List.length_append]
  refine ⟨by omega, behind, ?_⟩
  rw [slice_append_right _ _ _ (Nat.le_refl _), Nat.sub_self,
    slice_append_left _ _ (Nat.le_of_eq (Nat.zero_add _)), slice_zero_length]

end Bytes

namespace Reader

/-- A valid header, the schema block and the table at its offsets, and anything behind, can be
opened. -/
theorem ofBytes_append {overflow : Overflow} {header : Header} {block table : Bytes} (data : Bytes)
    {schema : FileSchema} {manifest : Manifest} (valid : header.validate overflow = .ok ())
    (blockOffset : header.schemaOffset.toNat = Header.size)
    (blockLength : header.schemaLength.toNat = block.length)
    (tableOffset : header.tableOffset.toNat = Header.size + block.length)
    (tableLength : table.length = header.stepCount.toNat * Header.entrySize)
    (decoded : FileSchema.decode block = .ok schema) (fields : schema.manifest = .ok manifest) :
    ofBytes overflow (header.encode ++ (block ++ (table ++ data))) =
      .ok ⟨header.encode ++ (block ++ (table ++ data)), header, schema, manifest,
        StepTable.decode header.stepCount.toNat table⟩ := by
  -- The block lies behind the header, the table behind both.
  have size := header.length_encode
  have atBlock := Bytes.region_append (table ++ data) "schema block"
    (blockOffset.trans size.symm) blockLength (Nat.le_of_eq size.symm)
  have front : (header.encode ++ block).length = Header.size + block.length := by
    rw [List.length_append, size]
  have tableBytes := (Header.toNat_tableLength header.stepCount).trans tableLength.symm
  have atTable := Bytes.region_append data "step table" (tableOffset.trans front.symm) tableBytes
    (by rw [front]; omega)
  rw [List.append_assoc] at atTable
  simp only [ofBytes, Header.decode_encode valid, bind, Except.bind, atBlock, decoded, fields,
    atTable, pure, Except.pure]

/-! ### Reading a step -/

theorem entry_eq_ok_iff {reader : Reader} {step : UInt32} {entry : StepEntry} :
    reader.entry step = .ok entry ↔ reader.entries[step.toNat]? = some entry := by
  rw [Reader.entry]
  cases reader.entries[step.toNat]? <;> simp

/-- A written entry can be read if there is a chunk in its region, which agrees with it. -/
theorem readEntry_eq_ok_iff {reader : Reader} {step : UInt32} {entry : StepEntry}
    {fields : List FieldData} (written : entry.written = true) :
    reader.readEntry step entry = .ok fields ↔ ∃ chunk header,
      reader.bytes.region entry.chunkOffset entry.chunkLength "chunk" = .ok chunk ∧
      Chunk.decode reader.manifest chunk = .ok (header, fields) ∧
      header.step = step ∧ header.recordStart = entry.recordStart ∧
        header.count = entry.count := by
  -- A region, a chunk in it and the agreement of both are asked for one after the other.
  rw [readEntry, if_neg (not_not_intro written)]
  simp only [Error.bind_eq_ok_iff]
  constructor
  · rintro ⟨chunk, region, ⟨header, values⟩, decoded, read⟩
    split at read
    · next agree =>
      cases read
      exact ⟨chunk, header, region, decoded, of_decide_eq_true agree⟩
    · cases read
  · rintro ⟨chunk, header, region, decoded, agree⟩
    exact ⟨chunk, region, (header, fields), decoded, if_pos (decide_eq_true agree)⟩

theorem readStep_eq_ok_iff {reader : Reader} {step : UInt32} {entry : StepEntry}
    {fields : List FieldData} :
    reader.readStep step = .ok (entry, fields) ↔
      reader.entry step = .ok entry ∧ reader.readEntry step entry = .ok fields := by
  simp only [readStep, Error.bind_eq_ok_iff]
  constructor
  · rintro ⟨own, found, values, read, same⟩
    cases same
    exact ⟨found, read⟩
  · rintro ⟨found, read⟩
    exact ⟨entry, found, fields, read, rfl⟩

/-- A step can be read if the region of its entry is a chunk of the step. -/
theorem readStep_of_chunk {reader : Reader} {step : UInt32} {entry : StepEntry} {chunk : Bytes}
    {header : ChunkHeader} {fields : List FieldData}
    (found : reader.entries[step.toNat]? = some entry) (written : entry.written = true)
    (region : reader.bytes.region entry.chunkOffset entry.chunkLength "chunk" = .ok chunk)
    (decoded : Chunk.decode reader.manifest chunk = .ok (header, fields))
    (agree : header.step = step ∧ header.recordStart = entry.recordStart ∧
      header.count = entry.count) :
    reader.readStep step = .ok (entry, fields) :=
  readStep_eq_ok_iff.2 ⟨entry_eq_ok_iff.2 found,
    (readEntry_eq_ok_iff written).2 ⟨chunk, header, region, decoded, agree⟩⟩

/-- A step whose entry is unwritten has no values. -/
theorem readStep_of_unwritten {reader : Reader} {step : UInt32}
    (found : reader.entries[step.toNat]? = some .unwritten) :
    reader.readStep step =
      .ok (.unwritten, reader.manifest.fields.map fun field => .empty field.dtype) :=
  readStep_eq_ok_iff.2 ⟨entry_eq_ok_iff.2 found, if_pos (by decide)⟩

end Reader

namespace FileImage

/-- The regions of a header that a file starts with end inside the file. -/
theorem regionsEnd_counters {image : FileImage} (room : image.bytes.length < 2 ^ 64)
    (recordLength : UInt64) (stepsWritten : UInt32) :
    { image.header with recordLength, stepsWritten }.regionsEnd = image.dataOffset := by
  show Header.size + image.header.schemaLength.toNat + image.stepCount.toNat * Header.entrySize = _
  rw [toNat_schemaLength room]
  rfl

/-- The header of an image is valid whatever its counters say, as long as the steps written are on
the time axis. -/
theorem validate_counters {image : FileImage} (overflow : Overflow)
    (room : image.bytes.length < 2 ^ 64) (recordLength : UInt64) {stepsWritten : UInt32}
    (within : stepsWritten ≤ image.stepCount) :
    { image.header with recordLength, stepsWritten }.validate overflow = .ok () := by
  have fits : image.dataOffset < 2 ^ 64 :=
    Nat.lt_of_le_of_lt (Nat.le_add_right _ _) (image.length_bytes ▸ room)
  refine Header.validate_eq_ok_iff.2 ⟨rfl, ⟨rfl, rfl⟩, rfl, ?_, within⟩
  refine Header.hasConsistentOffsets_eq_true_iff.2 ⟨⟨rfl, rfl, rfl⟩, fun _ => ?_⟩
  rw [regionsEnd_counters room]
  exact fits

theorem validate_header {image : FileImage} (overflow : Overflow)
    (room : image.bytes.length < 2 ^ 64) (within : image.IsWithinAxis) :
    image.header.validate overflow = .ok () :=
  validate_counters overflow room image.header.recordLength (stepsWritten_le within)

end FileImage

end RaggedTrajectory
