import RaggedTrajectory.Proofs.Reader.Soundness

/-!
# The numbers of particles in a table

The number of particles of a step is a signed word, and its sign is never looked at. It is compared
with the number in the header of the chunk, which has no sign: there a negative number is one of the
upper half of the range. The chunk says how long its raw payload is, and the payload is compared
with that. So where a particle has any bytes, a chunk that agrees with a negative number is one
whose values no memory holds, and the step cannot be read.

Where the schema declares no field a particle has no bytes. Then the payload is empty whatever the
number is, and a table with negative numbers is accepted.

* `Reader.count_le_byteLength`: the values of a step have a byte for each of its particles.
* `Reader.particleCount_nonneg_of_verify`: a verified file with fields has no negative numbers.
* `BareRun.verify_reader`: a file without fields is accepted with any number.
-/

namespace RaggedTrajectory

/-! ## The bytes of values -/

theorem DataType.one_le_size (dtype : DataType) : 1 ≤ dtype.size := by cases dtype <;> decide

theorem Field.one_le_stride (field : Field) : 1 ≤ field.stride :=
  Nat.mul_le_mul field.dtype.one_le_size field.shape.width_pos

/-- A particle has bytes in a manifest with fields. -/
theorem Manifest.one_le_stride {manifest : Manifest} (some : manifest.fields ≠ []) :
    1 ≤ manifest.stride := by
  obtain ⟨field, fields, split⟩ := List.exists_cons_of_ne_nil some
  rw [stride, split, List.map_cons, sumOf_cons]
  exact Nat.le_trans field.one_le_stride (Nat.le_add_right _ _)

/-- The bytes that values take. -/
def FieldData.byteLength (data : FieldData) : Nat := data.length * data.dtype.size

/-- The values that are cut out of a raw payload take as many bytes as it has. -/
theorem Chunk.IsCutInto.sumOf_byteLength {count : Nat} {fields : List Field} {raw : Bytes}
    {values : List FieldData} (cut : IsCutInto count fields raw values) :
    sumOf (values.map FieldData.byteLength) = raw.length := by
  rw [← cut.covers]
  congr 1
  refine List.ext_getElem (by rw [List.length_map, List.length_map, cut.length]) ?_
  intro index left right
  rw [List.length_map] at right
  obtain ⟨data, own, -, -, dtype, length⟩ :=
    cut.column index _ (List.getElem?_eq_getElem right)
  obtain ⟨inside, rfl⟩ := List.getElem?_eq_some_iff.1 own
  rw [List.getElem_map, List.getElem_map, FieldData.byteLength, length, dtype]
  rfl

/-! ## Negative numbers -/

/-- A negative number is read as a word of the upper half of the range. -/
theorem StepEntry.le_toNat_count {entry : StepEntry}
    (negative : entry.particleCount.toInt < 0) : 2 ^ 63 ≤ entry.count.toNat := by
  rw [← Int32.toInt_toInt64, Int64.toInt, BitVec.toInt_eq_toNat_cond] at negative
  show 2 ^ 63 ≤ entry.particleCount.toInt64.toBitVec.toNat
  split at negative
  · omega
  · omega

namespace Reader

/-- The values of a step have a byte, and more, for each of its particles. -/
theorem count_le_byteLength {reader : Reader} (declared : reader.manifest.fields ≠ [])
    {step : UInt32} {entry : StepEntry} {values : List FieldData} (written : entry.written = true)
    (read : reader.readEntry step entry = .ok values) :
    entry.count.toNat ≤ sumOf (values.map FieldData.byteLength) := by
  obtain ⟨chunk, header, -, decoded, -, -, same⟩ := (readEntry_eq_ok_iff written).1 read
  -- The raw payload has as many bytes as the chunk and the manifest say.
  obtain ⟨raw, -, -, cut⟩ := Chunk.isCutInto_of_decode decoded
  have covers := (Chunk.sumOf_columnLength header.count.toNat reader.manifest.fields).symm.trans
    cut.covers
  rw [cut.sumOf_byteLength, ← covers, ← same]
  exact Nat.le_mul_of_pos_right _ (Manifest.one_le_stride declared)

/-- The number of particles of a step that can be read is not negative, if the file declares a
field and the values fit into memory. -/
theorem particleCount_nonneg_of_readEntry {reader : Reader}
    (declared : reader.manifest.fields ≠ []) {step : UInt32} {entry : StepEntry}
    {values : List FieldData} (written : entry.written = true)
    (read : reader.readEntry step entry = .ok values)
    (memory : sumOf (values.map FieldData.byteLength) < 2 ^ 63) :
    0 ≤ entry.particleCount.toInt := by
  have count := count_le_byteLength declared written read
  -- As many values as a negative number asks for are more than any memory holds.
  refine Int.not_lt.1 fun negative => ?_
  have many := StepEntry.le_toNat_count negative
  omega

/-- The sign of the numbers of particles. In a file that can be opened and verified, whatever its
bytes are, the number of particles of a written step is not negative, if the file declares a field
and the values of each step fit into memory. -/
theorem particleCount_nonneg_of_verify {overflow : Overflow} {bytes : Bytes} {reader : Reader}
    (opened : ofBytes overflow bytes = .ok reader) (verified : reader.verify overflow = .ok ())
    (declared : reader.manifest.fields ≠ [])
    (memory : ∀ step entry values, reader.readStep step = .ok (entry, values) →
      sumOf (values.map FieldData.byteLength) < 2 ^ 63) :
    ∀ entry ∈ reader.entries, entry.written = true → 0 ≤ entry.particleCount.toInt := by
  intro entry mem written
  obtain ⟨size, -⟩ := of_ofBytes opened
  obtain ⟨-, readable⟩ := verify_eq_ok_iff.1 verified
  obtain ⟨place, found⟩ := List.mem_iff_getElem?.1 mem
  obtain ⟨values, read⟩ := exists_readStep_of_getElem? size readable found
  exact particleCount_nonneg_of_readEntry declared written (readStep_eq_ok_iff.1 read).2
    (memory _ entry values read)

/-- The run whose steps fall has a field, and no negative numbers. -/
theorem particleCount_nonneg_fallingRun :
    FallingRun.reader.manifest.fields ≠ [] ∧
      ∀ entry ∈ FallingRun.reader.entries, entry.written = true →
        0 ≤ entry.particleCount.toInt := by
  have declared : FallingRun.reader.manifest.fields ≠ [] := List.cons_ne_nil _ _
  have small : ∀ i < 3, (FallingRun.reader.readStep (UInt32.ofNat i)).toOption.all
      (fun result => sumOf (result.2.map FieldData.byteLength) < 2 ^ 63) = true := by
    decide +kernel
  refine ⟨declared, particleCount_nonneg_of_verify (FallingRun.ofBytes_image .stops)
    (FallingRun.verify_reader .stops) declared fun step entry values read => ?_⟩
  have inside := (List.getElem?_eq_some_iff.1 (entry_eq_ok_iff.1 (readStep_eq_ok_iff.1 read).1)).1
  have own := small step.toNat inside
  rw [UInt32.ofNat_toNat, read] at own
  exact of_decide_eq_true own

end Reader

/-! ## A file without fields -/

namespace BareRun

/-- A schema that declares nothing. -/
def schema : FileSchema := ⟨.empty, [], []⟩

def record (start : UInt64) (count : Int32) : StepRecord where
  step := 0
  time := ⟨0⟩
  count := count.toInt64.toUInt64
  recordStart := start
  chunk := Chunk.ofPayload 0 start count.toInt64.toUInt64.toNat [] (.ofCodec .stored)

/-- One step with a given number of particles, of which nothing is recorded. -/
def image (start : UInt64) (count : Int32) : FileImage :=
  ⟨.classic, .stored, 1, schema.encode, [record start count]⟩

def reader (start : UInt64) (count : Int32) : Reader := (image start count).reader schema .empty

/-- The entry of the step. -/
def entry (start : UInt64) (count : Int32) : StepEntry :=
  (record start count).entryAt (image start count).dataOffset

section Step

variable (start : UInt64) (count : Int32)

theorem length_chunk : (record start count).chunk.length = ChunkHeader.size := by
  show (ChunkHeader.encode _ ++ _).length = _
  rw [List.length_append, ChunkHeader.length_encode]
  rfl

theorem isWithinAxis : (image start count).IsWithinAxis := by
  intro record mem
  cases List.mem_singleton.1 mem
  exact UInt32.lt_iff_toNat_lt.2 Nat.zero_lt_one

theorem length_bytes : (image start count).bytes.length < 2 ^ 63 := by
  have block : schema.encode.length < 2 ^ 32 := by decide +kernel
  have chunks : (StepRecord.chunks (image start count).records).length = ChunkHeader.size := by
    show ((record start count).chunk ++ []).length = _
    rw [List.append_nil, length_chunk]
  rw [FileImage.length_bytes, chunks]
  show Header.size + schema.encode.length + 1 * Header.entrySize + ChunkHeader.size < 2 ^ 63
  unfold Header.size Header.entrySize ChunkHeader.size
  omega

theorem ofBytes_image (overflow : Overflow) :
    Reader.ofBytes overflow (image start count).bytes = .ok (reader start count) := by
  have exact : schema.IsExact := ⟨Attributes.areExact_empty, fun declared mem => by cases mem⟩
  exact FileImage.ofBytes_bytes overflow (isWithinAxis start count)
    (Nat.lt_trans (length_bytes start count) (by decide)) (FileSchema.decode_encode exact) rfl

/-- The table has the number as it was given. -/
theorem particleCount_entry : (entry start count).particleCount = count := by
  have narrow : count.toInt64.toUInt64.toUInt32.toInt32 = count.toInt64.toInt32 :=
    Int32.toBitVec_inj.1 (BitVec.signExtend_eq_setWidth_of_le _ (show 32 ≤ 64 by decide)).symm
  show count.toInt64.toUInt64.toUInt32.toInt32 = count
  rw [narrow, Int32.toInt32_toInt64]

/-- The step can be read: the chunk has the same number. -/
theorem readStep_reader : (reader start count).readStep 0 = .ok (entry start count, []) := by
  let snapshot : Snapshot :=
    ⟨.base, ⟨2013, 2, 13, 9, 0, 0, 0⟩, count.toInt64.toUInt64.toNat, []⟩
  have made : Chunk.encode .empty 0 start snapshot (.ofCodec .stored) =
    .ok (record start count).chunk := rfl
  have short : (record start count).chunk.length < 2 ^ 64 := by
    rw [length_chunk]
    decide
  -- No values are recorded, so the payload is empty for any number of particles.
  obtain ⟨header, decoded, step, begins, number⟩ :=
    Chunk.decode_encode made (UInt64.toNat_lt _) (Nat.zero_lt_of_ne_zero (by decide)) short
  have records : (image start count).records = [] ++ record start count :: [] := rfl
  have region := FileImage.region_chunk
    (FileImage.hasChunks_reader (image start count) schema .empty) records
    (Nat.lt_trans (length_bytes start count) (by decide))
  refine Reader.readStep_of_chunk rfl rfl region decoded ⟨step, begins, ?_⟩
  show header.count = (entry start count).count
  rw [number, StepEntry.count, particleCount_entry]
  exact UInt64.ofNat_toNat

end Step

/-- The file is accepted, whatever the number is. -/
theorem verify_reader (overflow : Overflow) (count : Int32) :
    (reader 0 count).verify overflow = .ok () := by
  have vacant : ∀ entry ∈ [StepEntry.unwritten], entry.written = false := by decide
  have counted : (entry 0 count).count = UInt64.ofNat count.toInt64.toUInt64.toNat := by
    rw [StepEntry.count, particleCount_entry]
    exact UInt64.ofNat_toNat.symm
  -- The only entry starts at the first record, and the counter of the header is where it ends.
  have tiles : StepTable.Tiles ([StepEntry.unwritten].set 0 (entry 0 count))
      (0 + count.toInt64.toUInt64.toNat) :=
    StepTable.tiles_set (StepTable.tiles_of_vacant vacant) Nat.zero_lt_one rfl vacant rfl counted
      (by rw [Nat.zero_add]; exact UInt64.toNat_lt _)
  refine Reader.verify_eq_ok overflow tiles ?_ fun step inside => ?_
  · rw [Nat.zero_add, UInt64.ofNat_toNat]
    exact UInt64.zero_add _
  · have first : step = 0 := UInt32.toNat_inj.1 (Nat.lt_one_iff.1 (UInt32.lt_iff_toNat_lt.1 inside))
    exact ⟨_, first ▸ readStep_reader 0 count⟩

end BareRun

/-- A written step whose number of particles is the fill value of unwritten ones, in a file that is
accepted: its schema declares no field. -/
theorem Reader.verify_bareRun :
    ofBytes .stops (BareRun.image 0 (DataType.fill .int32)).bytes =
        .ok (BareRun.reader 0 (DataType.fill .int32)) ∧
      (BareRun.reader 0 (DataType.fill .int32)).verify .stops = .ok () ∧
      ∃ entry ∈ (BareRun.reader 0 (DataType.fill .int32)).entries,
        entry.written = true ∧ entry.particleCount.toInt = -2147483647 := by
  have mem : BareRun.entry 0 (DataType.fill .int32) ∈
      (BareRun.reader 0 (DataType.fill .int32)).entries := List.mem_singleton.2 rfl
  refine ⟨BareRun.ofBytes_image 0 _ .stops, BareRun.verify_reader .stops _, _, mem, rfl, ?_⟩
  rw [BareRun.particleCount_entry]
  decide

end RaggedTrajectory
