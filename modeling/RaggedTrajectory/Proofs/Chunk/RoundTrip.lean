import RaggedTrajectory.Proofs.Chunk.WellFormed
import RaggedTrajectory.Proofs.Schema.Manifest

/-!
# Chunks are read back

What a chunk records for a snapshot is fixed by the manifest, field by field: `Field.recorded`. A
payload is the little-endian form of these values, one column after the other, and it has as many
bytes as the manifest says. A chunk that was made for a snapshot is read back to these values,
whatever the policy of compression did to the payload, also by a reader that has the manifest from
the schema block.

* `Field.column_eq_encode_recorded`: a column is the encoding of what the field records.
* `Chunk.columns_payload`: a payload is cut into its columns again.
* `Chunk.decode_headerOf_append`: a chunk is read back, whatever follows it.
-/

namespace RaggedTrajectory

/-! ## Rows of values -/

namespace FieldData

/-- The little-endian bytes of all values. -/
def encode (data : FieldData) : Bytes := data.values.toList.flatMap data.dtype.encodeElement

@[simp]
theorem length_encode (data : FieldData) : data.encode.length = data.length * data.dtype.size := by
  rw [encode, length_flatMap_encodeElement, Array.length_toList, length]

/-- Values are read back from their own bytes. -/
theorem decode_encode (data : FieldData) : decode data.dtype data.encode = .ok data := by
  have positive := data.dtype.size_pos
  have whole : data.encode.length % data.dtype.size = 0 := by
    rw [length_encode, Nat.mul_mod_left]
  have count : data.encode.length / data.dtype.size = data.values.toList.length := by
    rw [length_encode, Nat.mul_div_cancel _ positive, length, Array.length_toList]
  have elements := decodeElements_flatMap data.dtype data.values.toList []
  rw [List.append_nil] at elements
  rw [decode, if_pos whole, count, encode, elements]

/-- All values, in their order. -/
theorem select_range (data : FieldData) :
    data.select (List.range data.length) = data.values.toList := by
  obtain ⟨dtype, ⟨elements⟩⟩ := data
  simp only [select, length, List.getElem?_toArray, List.size_toArray]
  induction elements with
  | nil => rfl
  | cons element elements ih =>
    rw [List.length_cons, List.range_succ_eq_map, List.filterMap_cons, List.filterMap_map]
    simpa [Function.comp_def] using ih

/-- The values at places before the end. -/
theorem select_map (data : FieldData) {count : Nat} {place : Nat → Nat}
    (inside : ∀ i < count, place i < data.length) :
    data.select ((List.range count).map place) =
      (List.range count).map fun i => data.values.getD (place i) data.dtype.fill := by
  rw [select]
  induction count with
  | zero => rfl
  | succ count ih =>
    have bound : place count < data.values.size := inside count (Nat.lt_succ_self count)
    rw [List.range_succ, List.map_append, List.map_append, List.filterMap_append,
      ih fun i before => inside i (Nat.lt_succ_of_lt before)]
    simp [Array.getD, bound]

end FieldData

/-! ## Columns -/

namespace Field

/-- What a chunk records of a field: the values of its array in the type of the field, for a
component every third of them, and fill values where the array is missing. -/
def recorded (field : Field) (snapshot : Snapshot) : FieldData where
  dtype := field.dtype
  values :=
    match snapshot.get? field.binding.arrayName, field.binding with
    | none, _ => Array.replicate (snapshot.count * field.width) field.dtype.fill
    | some array, .array _ => array.data.values.map (DataType.cast array.data.dtype field.dtype)
    | some array, .component _ index =>
      (Array.range snapshot.count).map fun i =>
        DataType.cast array.data.dtype field.dtype
          (array.data.values.getD (i * vectorWidth + index) array.data.dtype.fill)

@[simp]
theorem dtype_recorded (field : Field) (snapshot : Snapshot) :
    (field.recorded snapshot).dtype = field.dtype := rfl

/-- The bytes of equal elements. -/
theorem fillColumn_eq_encode (field : Field) (count : Nat) :
    field.fillColumn count =
      (FieldData.replicate field.dtype (count * field.width) field.dtype.fill).encode := by
  simp [fillColumn, Bytes.times, FieldData.encode, FieldData.replicate, List.flatMap]

/-- A whole array is taken in its own order, if it has as many values as the column. -/
theorem columnOf_eq_ok_of_array {field : Field} {count : Nat} {array : ParticleArray}
    {name : String} {column : Bytes} (binding : field.binding = .array name)
    (made : field.columnOf count array = .ok column) :
    array.data.length = count * field.width ∧
      column = array.data.encodeAs field.dtype (List.range (count * field.width)) := by
  simp only [columnOf, binding] at made
  split at made
  · cases made
  split at made
  · cases made
  next length =>
  cases made
  exact ⟨Decidable.not_not.1 length, rfl⟩

/-- A component is taken from a vector array, for a scalar field only. -/
theorem columnOf_eq_ok_of_component {field : Field} {count : Nat} {array : ParticleArray}
    {name : String} {index : Nat} {column : Bytes} (binding : field.binding = .component name index)
    (made : field.columnOf count array = .ok column) :
    field.shape = .scalar ∧ (∀ i < count, i * vectorWidth + index < array.data.length) ∧
      column = array.data.encodeAs field.dtype
        ((List.range count).map fun i => i * vectorWidth + index) := by
  simp only [columnOf, binding] at made
  split at made
  · cases made
  next shape =>
  split at made
  · cases made
  next component =>
  split at made
  · cases made
  next length =>
  cases made
  refine ⟨Decidable.not_not.1 fun other => shape (.inr other), fun i bound => ?_, rfl⟩
  -- The component of the last particle is still in the array, as the index is below the width.
  have next : (i + 1) * vectorWidth ≤ count * vectorWidth := Nat.mul_le_mul_right _ bound
  rw [Nat.succ_mul] at next
  omega

/-- A column holds what the field records, and a value for every particle and component. -/
theorem column_eq_encode_recorded {field : Field} {snapshot : Snapshot} {column : Bytes}
    (made : field.column snapshot = .ok column) :
    column = (field.recorded snapshot).encode ∧
      (field.recorded snapshot).length = snapshot.count * field.width := by
  unfold Field.column at made
  unfold recorded FieldData.length
  cases present : snapshot.get? field.binding.arrayName with
  | none =>
    rw [present] at made
    obtain rfl : field.fillColumn snapshot.count = column := by simpa using made
    exact ⟨fillColumn_eq_encode field _, by simp⟩
  | some array =>
    rw [present] at made
    cases binding : field.binding with
    | array name =>
      obtain ⟨length, rfl⟩ := columnOf_eq_ok_of_array binding made
      refine ⟨?_, ?_⟩
      · rw [FieldData.encodeAs, ← length, FieldData.select_range, FieldData.encode]
        simp [List.flatMap_map]
      · rw [Array.size_map]
        exact length
    | component name index =>
      obtain ⟨scalar, inside, rfl⟩ := columnOf_eq_ok_of_component binding made
      refine ⟨?_, ?_⟩
      · rw [FieldData.encodeAs, FieldData.select_map _ inside, FieldData.encode]
        simp [List.flatMap_map]
      · simp [width, scalar, FieldShape.width]

end Field

/-! ## Payloads -/

namespace Manifest

/-- The manifest as a file declares it. -/
def asDeclared (manifest : Manifest) : Manifest := ⟨manifest.fields.map Field.asDeclared⟩

@[simp]
theorem stride_asDeclared (manifest : Manifest) : manifest.asDeclared.stride = manifest.stride := by
  rw [stride, asDeclared, List.map_map]
  rfl

end Manifest

namespace Chunk

/-- What a chunk records of every field. -/
def recorded (manifest : Manifest) (snapshot : Snapshot) : List FieldData :=
  manifest.fields.map (·.recorded snapshot)

theorem payload_cons {snapshot : Snapshot} {field : Field} {fields : List Field} {raw : Bytes}
    (made : payload snapshot (field :: fields) = .ok raw) :
    ∃ column columns, field.column snapshot = .ok column ∧
      payload snapshot fields = .ok columns ∧ raw = column ++ columns := by
  simp only [payload, Error.bind_eq_ok_iff] at made
  obtain ⟨column, first, columns, others, same⟩ := made
  cases same
  exact ⟨column, columns, first, others, rfl⟩

/-- A payload is as long as the strides of the fields say. -/
theorem length_payload {snapshot : Snapshot} {fields : List Field} {raw : Bytes}
    (made : payload snapshot fields = .ok raw) :
    raw.length = snapshot.count * sumOf (fields.map Field.stride) := by
  induction fields generalizing raw with
  | nil =>
    obtain rfl : [] = raw := by simpa [payload] using made
    simp
  | cons field fields ih =>
    obtain ⟨column, columns, first, others, rfl⟩ := payload_cons made
    obtain ⟨bytes, count⟩ := Field.column_eq_encode_recorded first
    rw [List.length_append, ih others, bytes, FieldData.length_encode, count, List.map_cons,
      sumOf_cons, Nat.mul_add, Field.dtype_recorded, Nat.mul_assoc, Nat.mul_comm field.width]
    rfl

/-- A payload is cut into its columns again. -/
theorem columns_payload {snapshot : Snapshot} {fields : List Field} {raw : Bytes}
    (made : payload snapshot fields = .ok raw) :
    columns snapshot.count fields raw = .ok (fields.map (·.recorded snapshot)) := by
  induction fields generalizing raw with
  | nil => rfl
  | cons field fields ih =>
    obtain ⟨column, rest, first, others, rfl⟩ := payload_cons made
    obtain ⟨bytes, count⟩ := Field.column_eq_encode_recorded first
    -- The reader cuts off as many bytes as the column of the first field has.
    have length : snapshot.count * field.width * field.dtype.size = column.length := by
      rw [bytes, FieldData.length_encode, count]
      rfl
    have own : FieldData.decode field.dtype column = .ok (field.recorded snapshot) := by
      rw [bytes]
      exact FieldData.decode_encode (field.recorded snapshot)
    rw [columns, length, List.take_left, List.drop_left, own, ih others]
    rfl

/-- Columns are cut by types and shapes alone, which a file keeps. -/
theorem columns_asDeclared (count : Nat) (manifest : Manifest) (raw : Bytes) :
    columns count manifest.asDeclared.fields raw = columns count manifest.fields raw := by
  obtain ⟨fields⟩ := manifest
  show columns count (fields.map Field.asDeclared) raw = columns count fields raw
  induction fields generalizing raw with
  | nil => rfl
  | cons field fields ih =>
    simp only [List.map_cons, columns, ih]
    rfl

theorem decode_asDeclared (manifest : Manifest) (bytes : Bytes) :
    decode manifest.asDeclared bytes = decode manifest bytes := by
  unfold decode
  simp only [Manifest.stride_asDeclared, columns_asDeclared]

end Chunk

/-! ## Whole chunks -/

/-- What a policy stores is read back by the codec that it names. -/
theorem CompressionPolicy.decompress_store (policy : CompressionPolicy) (data : Bytes) :
    Codec.decompress (policy.store data).1 (policy.store data).2 data.length = .ok data := by
  have whole := Codec.decompress_compress data .stored
  unfold store
  split
  · exact whole
  · simp only
    split
    · exact Codec.decompress_compress data policy.method
    · exact whole

namespace Chunk

/-- The header of the chunk that is made from a raw payload. -/
def headerOf (step : UInt32) (recordStart : UInt64) (count : Nat) (raw : Bytes)
    (policy : CompressionPolicy) : ChunkHeader where
  step
  recordStart
  count := UInt64.ofNat count
  codec := (policy.store raw).2
  rawLength := UInt64.ofNat raw.length
  storedLength := UInt64.ofNat (policy.store raw).1.length
  checksum := Crc32.checksum (policy.store raw).1

/-- A chunk that was made is its header and the stored payload. -/
theorem exists_payload_of_encode {manifest : Manifest} {step : UInt32} {recordStart : UInt64}
    {snapshot : Snapshot} {policy : CompressionPolicy} {chunk : Bytes}
    (made : encode manifest step recordStart snapshot policy = .ok chunk) :
    ∃ raw, payload snapshot manifest.fields = .ok raw ∧
      chunk = (headerOf step recordStart snapshot.count raw policy).encode ++
        (policy.store raw).1 := by
  obtain ⟨raw, own, same⟩ := Error.bind_eq_ok_iff.1 made
  cases same
  exact ⟨raw, own, rfl⟩

/-- From a raw payload its header and the stored payload are made. -/
theorem encode_of_payload {manifest : Manifest} {snapshot : Snapshot} {raw : Bytes}
    (made : payload snapshot manifest.fields = .ok raw) (step : UInt32) (recordStart : UInt64)
    (policy : CompressionPolicy) :
    encode manifest step recordStart snapshot policy =
      .ok ((headerOf step recordStart snapshot.count raw policy).encode ++
        (policy.store raw).1) := by
  rw [encode, made]
  rfl

/-- A header and the stored payload behind it are read back, whatever follows them, if the words of
the header are the numbers they were made from. -/
theorem decode_headerOf_append {manifest : Manifest} {snapshot : Snapshot} {raw : Bytes}
    (made : payload snapshot manifest.fields = .ok raw) (step : UInt32) (recordStart : UInt64)
    (policy : CompressionPolicy) (count : snapshot.count < 2 ^ 64) (fits : raw.length < 2 ^ 64)
    (length : (policy.store raw).1.length < 2 ^ 64) (rest : Bytes) :
    decode manifest ((headerOf step recordStart snapshot.count raw policy).encode ++
        ((policy.store raw).1 ++ rest)) =
      .ok (headerOf step recordStart snapshot.count raw policy, recorded manifest snapshot) := by
  have rawLength : raw.length = snapshot.count * manifest.stride := length_payload made
  generalize definition : headerOf step recordStart snapshot.count raw policy = header
  have counted : header.count.toNat = snapshot.count := by
    rw [← definition]
    exact UInt64.toNat_ofNat_of_lt' count
  have rawWord : header.rawLength.toNat = snapshot.count * manifest.stride := by
    rw [← definition, ← rawLength]
    exact UInt64.toNat_ofNat_of_lt' fits
  have storedWord : header.storedLength.toNat = (policy.store raw).1.length := by
    rw [← definition]
    exact UInt64.toNat_ofNat_of_lt' length
  have stored : (header.encode ++ ((policy.store raw).1 ++ rest)).slice ChunkHeader.size
      header.storedLength.toNat = (policy.store raw).1 := by
    rw [Bytes.slice, ← ChunkHeader.length_encode header, List.drop_left, storedWord, List.take_left]
  have back : Codec.decompress (policy.store raw).1 header.codec
      (snapshot.count * manifest.stride) = .ok raw := by
    rw [← definition, ← rawLength]
    exact policy.decompress_store raw
  -- So the checks of the reader succeed one after the other.
  refine decode_eq_ok_iff.2 ⟨ChunkHeader.decode_encode header _, ?_, ?_, ?_, raw, ?_, ?_⟩
  · rw [List.length_append, List.length_append, ChunkHeader.length_encode, storedWord]
    omega
  · rw [rawWord, counted]
  · rw [stored, ← definition]
    rfl
  · rw [stored, counted]
    exact back
  · rw [counted]
    exact columns_payload made

/-- A chunk is read back: its step and its range of records, and what it records of every field.
The lengths in its header have 64 bits. -/
theorem decode_encode {manifest : Manifest} {step : UInt32} {recordStart : UInt64}
    {snapshot : Snapshot} {policy : CompressionPolicy} {chunk : Bytes}
    (made : encode manifest step recordStart snapshot policy = .ok chunk)
    (count : snapshot.count < 2 ^ 64) (fits : snapshot.count * manifest.stride < 2 ^ 64)
    (length : chunk.length < 2 ^ 64) :
    ∃ header, decode manifest chunk = .ok (header, recorded manifest snapshot) ∧
      header.step = step ∧ header.recordStart = recordStart ∧
      header.count = UInt64.ofNat snapshot.count := by
  obtain ⟨raw, payload, rfl⟩ := exists_payload_of_encode made
  rw [List.length_append, ChunkHeader.length_encode] at length
  have rawLength : raw.length = snapshot.count * manifest.stride := length_payload payload
  have back := decode_headerOf_append payload step recordStart policy count (rawLength ▸ fits)
    (Nat.lt_of_le_of_lt (Nat.le_add_left _ _) length) []
  rw [List.append_nil] at back
  exact ⟨_, back, rfl, rfl, rfl⟩

end Chunk

end RaggedTrajectory
