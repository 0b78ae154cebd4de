import RaggedTrajectory.Proofs.Chunk.RoundTrip

/-!
# A raw chunk has one form

The reader of chunks accepts nothing that the writer would not have written. A payload that is
stored as it is has one form for its content: every word of the header is compared with something
that the content decides, and the values of a column are kept bit for bit. So a raw chunk that was
read can be written again from what was read, and the same bytes come out.

* `ChunkHeader.encode_eq_of_decode`: an accepted header is written as it was read.
* `Chunk.payload_eq_of_columns`: the columns of a raw payload make up this payload again.
* `Chunk.encode_of_decode`: an accepted raw chunk is written as it was read.
-/

namespace RaggedTrajectory

open LittleEndian (wordAt)

/-! ## Headers -/

namespace Bytes

/-- Two parts of a byte string, the second behind the first. -/
theorem slice_append_slice (bytes : Bytes) (start first second : Nat) :
    bytes.slice start first ++ bytes.slice (start + first) second =
      bytes.slice start (first + second) := by
  unfold slice
  rw [List.take_add, List.drop_drop]

end Bytes

namespace LittleEndian

/-- A word at a place of a byte string is written as the bytes that are there. -/
theorem encode_wordAt {bytes : Bytes} {start width : Nat} (inside : start + width ≤ bytes.length) :
    encode width (wordAt bytes start width) = bytes.slice start width := by
  have length : (bytes.slice start width).length = width := by
    rw [Bytes.length_slice]
    omega
  have whole := encode_decode (bytes.slice start width)
  rwa [length] at whole

end LittleEndian

namespace ChunkHeader

/-- The words at their places, put one behind the other, are the front of the byte string. -/
theorem encode_ofWords {bytes : Bytes} {codec : Codec} (headed : size ≤ bytes.length)
    (letters : bytes.slice 0 4 = magic) (tag : codecIn? bytes = some codec) :
    (ofWords bytes codec).encode = bytes.slice 0 size := by
  have word (start width : Nat) (inside : start + width ≤ size) :
      LittleEndian.encode width (wordAt bytes start width) = bytes.slice start width :=
    LittleEndian.encode_wordAt (Nat.le_trans inside headed)
  -- The tag is a byte, so no other number stands for the codec.
  have tagWord : (ofWords bytes codec).codec.tag.toNat = wordAt bytes 24 1 := by
    show codec.tag.toNat = _
    rw [Codec.tag_of_ofTag? tag, LittleEndian.toNat_wordAt_one]
  rw [encode, step_ofWords, recordStart_ofWords, count_ofWords, tagWord, rawLength_ofWords,
    storedLength_ofWords, checksum_ofWords, ← letters, word 4 4 (by decide), word 8 8 (by decide),
    word 16 8 (by decide), word 24 1 (by decide), word 25 8 (by decide), word 33 8 (by decide),
    word 41 4 (by decide)]
  -- Each word starts where the one before it ends.
  rw [bytes.slice_append_slice 33 8 4, bytes.slice_append_slice 25 8 12,
    bytes.slice_append_slice 24 1 20, bytes.slice_append_slice 16 8 21,
    bytes.slice_append_slice 8 8 29, bytes.slice_append_slice 4 4 37,
    bytes.slice_append_slice 0 4 41]
  rfl

/-- An accepted header is written as it was read. -/
theorem encode_eq_of_decode {bytes : Bytes} {header : ChunkHeader}
    (decoded : decode bytes = .ok header) : header.encode = bytes.slice 0 size := by
  obtain ⟨headed, letters, codec, tag, rfl⟩ := decode_eq_ok_iff.1 decoded
  exact encode_ofWords headed letters tag

end ChunkHeader

/-! ## Columns -/

namespace FieldData

/-- Values that were read are written as the bytes they were read from. -/
theorem encode_eq_of_decode {dtype : DataType} {bytes : Bytes} {data : FieldData}
    (decoded : decode dtype bytes = .ok data) : data.encode = bytes := by
  rw [decode] at decoded
  split at decoded
  · next remainder =>
    cases decoded
    -- Without a remainder the bytes are whole elements.
    have whole : bytes.length = bytes.length / dtype.size * dtype.size :=
      (Nat.div_mul_cancel (Nat.dvd_of_mod_eq_zero remainder)).symm
    exact flatMap_decodeElements dtype whole
  · cases decoded

/-- Within one type no value is changed. -/
theorem encodeAs_self (data : FieldData) :
    data.encodeAs data.dtype (List.range data.length) = data.encode := by
  rw [encodeAs, select_range, encode]
  simp only [DataType.cast_self]

end FieldData

namespace Field

/-- The column of a field whose array has the type and the shape of the field holds the bytes of the
array. -/
theorem column_eq_encode {field : Field} {snapshot : Snapshot} {data : FieldData}
    (bound : field.binding = .array field.name)
    (present : snapshot.get? field.name = some ⟨field.shape, data⟩)
    (dtype : data.dtype = field.dtype) (length : data.length = snapshot.count * field.width) :
    field.column snapshot = .ok data.encode := by
  have array : snapshot.get? field.binding.arrayName = some ⟨field.shape, data⟩ := by
    rw [bound]
    exact present
  rw [column, array]
  show field.columnOf snapshot.count ⟨field.shape, data⟩ = _
  simp only [columnOf, bound]
  -- Neither the shape nor the length is refused.
  rw [if_neg (not_not_intro rfl), if_neg (not_not_intro length), ← length, ← dtype,
    FieldData.encodeAs_self]

end Field

namespace Chunk

/-- The columns of a raw payload make up this payload again, in a snapshot that has each of them
under the name of its field. -/
theorem payload_eq_of_columns {snapshot : Snapshot} {fields : List Field} {raw : Bytes}
    {values : List FieldData} (bound : ∀ field ∈ fields, field.binding = .array field.name)
    (long : raw.length = snapshot.count * sumOf (fields.map Field.stride))
    (cut : columns snapshot.count fields raw = .ok values)
    (present : ∀ item ∈ fields.zip values,
      snapshot.get? item.1.name = some ⟨item.1.shape, item.2⟩) :
    payload snapshot fields = .ok raw := by
  -- The induction goes along the fields; the bytes behind a column are those of the other fields.
  induction fields generalizing raw values with
  | nil =>
    have none : raw = [] := List.eq_nil_of_length_eq_zero long
    rw [none, payload]
  | cons field fields ih =>
    simp only [columns, Error.bind_eq_ok_iff] at cut
    obtain ⟨data, own, others, rest, same⟩ := cut
    cases same
    have encoded := FieldData.encode_eq_of_decode own
    have covers := (sumOf_columnLength snapshot.count (field :: fields)).trans long.symm
    rw [List.map_cons, sumOf_cons, columnLength] at covers
    have first : (raw.take (snapshot.count * field.width * field.dtype.size)).length =
        snapshot.count * field.width * field.dtype.size := by
      rw [List.length_take]
      omega
    -- What was cut off is as long as a column, so the array has as many values as are asked for.
    obtain ⟨_, read, dtype, length⟩ := exists_decode_of_length _ _ _ first
    cases read.symm.trans own
    have column := Field.column_eq_encode (bound field List.mem_cons_self)
      (present (field, data) List.mem_cons_self) dtype length
    have behind := ih (fun other mem => bound other (List.mem_cons_of_mem _ mem))
      (by rw [List.length_drop, ← sumOf_columnLength]; omega) rest
      (fun item mem => present item (List.mem_cons_of_mem _ mem))
    rw [payload, column, behind, encoded]
    show Except.ok _ = _
    rw [List.take_append_drop]

end Chunk

/-! ## Snapshots of what was read -/

namespace Snapshot

/-- Puts arrays in, one after the other. -/
def insertAll (snapshot : Snapshot) (arrays : List (String × ParticleArray)) : Snapshot :=
  arrays.foldl (fun snapshot array => snapshot.insert array.1 array.2) snapshot

@[simp]
theorem count_insertAll (snapshot : Snapshot) (arrays : List (String × ParticleArray)) :
    (snapshot.insertAll arrays).count = snapshot.count := by
  induction arrays generalizing snapshot with
  | nil => rfl
  | cons array arrays ih => exact ih (snapshot.insert array.1 array.2)

/-- Arrays of other names do not matter for a name. -/
theorem get?_insertAll_of_notMem {arrays : List (String × ParticleArray)} {name : String}
    (absent : name ∉ arrays.map Prod.fst) (snapshot : Snapshot) :
    (snapshot.insertAll arrays).get? name = snapshot.get? name := by
  induction arrays generalizing snapshot with
  | nil => rfl
  | cons array arrays ih =>
    rw [List.map_cons, List.mem_cons, not_or] at absent
    show ((snapshot.insert array.1 array.2).insertAll arrays).get? name = _
    rw [ih absent.2]
    exact Keyed.get?_insert_ne _ _ absent.1

/-- Under distinct names every array is found. -/
theorem get?_insertAll {arrays : List (String × ParticleArray)}
    (distinct : (arrays.map Prod.fst).Nodup) {name : String} {array : ParticleArray}
    (mem : (name, array) ∈ arrays) (snapshot : Snapshot) :
    (snapshot.insertAll arrays).get? name = some array := by
  induction arrays generalizing snapshot with
  | nil => cases mem
  | cons first arrays ih =>
    rw [List.map_cons, List.nodup_cons] at distinct
    show ((snapshot.insert first.1 first.2).insertAll arrays).get? name = _
    rcases List.mem_cons.1 mem with rfl | later
    · -- No later array has the name of the first one.
      rw [get?_insertAll_of_notMem distinct.1]
      exact Keyed.get?_insert_self _ _ _
    · exact ih distinct.2 later _

end Snapshot

namespace Chunk

/-- What was read as arrays: the values of each field under its name and with its shape. -/
def arraysOf (manifest : Manifest) (values : List FieldData) : List (String × ParticleArray) :=
  (manifest.fields.zip values).map fun item => (item.1.name, ⟨item.1.shape, item.2⟩)

/-- A snapshot of so many particles with what was read. -/
def snapshotOf (manifest : Manifest) (population : Population) (time : Timestamp) (count : Nat)
    (values : List FieldData) : Snapshot :=
  Snapshot.insertAll ⟨population, time, count, []⟩ (arraysOf manifest values)

/-- In a manifest with distinct names the snapshot has the values of every field. -/
theorem get?_snapshotOf {manifest : Manifest} {values : List FieldData}
    (distinct : manifest.names.Nodup) (length : values.length = manifest.fields.length)
    (population : Population) (time : Timestamp) (count : Nat) :
    ∀ item ∈ manifest.fields.zip values,
      (snapshotOf manifest population time count values).get? item.1.name =
        some ⟨item.1.shape, item.2⟩ := by
  intro item mem
  -- There are as many arrays as fields, and they have the names of the fields.
  have names : (arraysOf manifest values).map Prod.fst = manifest.names := by
    calc (arraysOf manifest values).map Prod.fst
      _ = ((manifest.fields.zip values).map Prod.fst).map Field.name := by
        rw [arraysOf, List.map_map, List.map_map]
        rfl
      _ = manifest.names := by
        rw [List.map_fst_zip (Nat.le_of_eq length.symm)]
        rfl
  apply Snapshot.get?_insertAll (names ▸ distinct)
  exact List.mem_map.2 ⟨item, mem, rfl⟩

/-! ## Raw chunks -/

/-- What is stored as it is needs no decompression. -/
theorem eq_of_decompress_stored {stored raw : Bytes} {length : Nat}
    (back : Codec.decompress stored .stored length = .ok raw) : raw = stored := by
  obtain ⟨data, own, back⟩ := Error.bind_eq_ok_iff.1 back
  cases own
  obtain ⟨-, same⟩ := Error.guard_eq_ok_iff.1 back
  cases same
  rfl

/-- Without compression a payload is stored as it is. -/
theorem store_stored (data : Bytes) :
    (CompressionPolicy.ofCodec .stored).store data = (data, .stored) := by
  rw [CompressionPolicy.store, if_pos (.inr rfl)]

section Raw

variable {manifest : Manifest} {bytes : Bytes} {header : ChunkHeader} {values : List FieldData}

/-- The header of a raw chunk that was read is the one that is made for its payload. -/
theorem headerOf_stored {raw : Bytes} (stored : header.codec = .stored)
    (rawLength : header.rawLength.toNat = raw.length)
    (storedLength : header.storedLength.toNat = raw.length)
    (intact : Crc32.checksum raw = header.checksum) :
    headerOf header.step header.recordStart header.count.toNat raw (.ofCodec .stored) = header := by
  obtain ⟨step, recordStart, count, codec, rawWord, storedWord, checksum⟩ := header
  simp only at stored rawLength storedLength intact
  simp only [headerOf, store_stored, UInt64.ofNat_toNat]
  -- A word that has a length as its number is the word that is made from the length.
  have rawSame : UInt64.ofNat raw.length = rawWord := by
    rw [← rawLength, UInt64.ofNat_toNat]
  have storedSame : UInt64.ofNat raw.length = storedWord := by
    rw [← storedLength, UInt64.ofNat_toNat]
  rw [stored, intact, ← rawSame, ← storedSame]

/-- A raw chunk is written from what was read of it. -/
theorem encode_snapshotOf (distinct : manifest.names.Nodup)
    (bound : ∀ field ∈ manifest.fields, field.binding = .array field.name)
    (decoded : decode manifest bytes = .ok (header, values)) (stored : header.codec = .stored)
    (whole : bytes.length = ChunkHeader.size + header.storedLength.toNat)
    (population : Population) (time : Timestamp) :
    encode manifest header.step header.recordStart
      (snapshotOf manifest population time header.count.toNat values) (.ofCodec .stored) =
        .ok bytes := by
  obtain ⟨raw, -, -, cut⟩ := isCutInto_of_decode decoded
  have length := cut.length
  obtain ⟨read, -, sized, intact, raw, back, cut⟩ := decode_eq_ok_iff.1 decoded
  -- The raw payload is what stands behind the header, up to the end.
  rw [stored] at back
  obtain rfl := eq_of_decompress_stored back
  have long := Codec.length_of_decompress back
  have places : (bytes.slice ChunkHeader.size header.storedLength.toNat).length =
      header.storedLength.toNat := by
    rw [Bytes.length_slice, whole]
    omega
  have count : (snapshotOf manifest population time header.count.toNat values).count =
      header.count.toNat := Snapshot.count_insertAll _ _
  have made : payload (snapshotOf manifest population time header.count.toNat values)
      manifest.fields = .ok (bytes.slice ChunkHeader.size header.storedLength.toNat) := by
    refine payload_eq_of_columns bound ?_ ?_
      (get?_snapshotOf distinct length population time header.count.toNat)
    · rw [count]
      exact long
    · rw [count]
      exact cut
  -- Nothing stands between the header and the payload, and nothing behind them.
  have parts : header.encode ++ bytes.slice ChunkHeader.size header.storedLength.toNat = bytes := by
    have behind := bytes.slice_append_slice 0 ChunkHeader.size header.storedLength.toNat
    rw [Nat.zero_add, ← whole, Bytes.slice_zero_length] at behind
    rw [ChunkHeader.encode_eq_of_decode read, behind]
  rw [encode_of_payload made, count, store_stored,
    headerOf_stored stored (sized.trans long.symm) places.symm intact, parts]

/-- Writing undoes reading. If a byte string without anything behind it is accepted as a chunk that
is stored as it is, by a manifest whose fields have distinct names and are read from the arrays of
these names, then the same bytes are written from what was read. So no other raw chunk has the same
content. -/
theorem encode_of_decode (distinct : manifest.names.Nodup)
    (bound : ∀ field ∈ manifest.fields, field.binding = .array field.name)
    (decoded : decode manifest bytes = .ok (header, values)) (stored : header.codec = .stored)
    (whole : bytes.length = ChunkHeader.size + header.storedLength.toNat)
    (population : Population) (time : Timestamp) :
    encode manifest header.step header.recordStart
        (snapshotOf manifest population time header.count.toNat values) (.ofCodec .stored) =
          .ok bytes ∧
      ∀ other otherHeader, decode manifest other = .ok (otherHeader, values) →
        otherHeader.codec = .stored →
        other.length = ChunkHeader.size + otherHeader.storedLength.toNat →
        otherHeader.step = header.step → otherHeader.recordStart = header.recordStart →
        otherHeader.count = header.count → other = bytes := by
  have own := encode_snapshotOf distinct bound decoded stored whole population time
  refine ⟨own, ?_⟩
  intro other otherHeader otherDecoded otherStored otherWhole step recordStart count
  -- Both are written from the same snapshot.
  have same := encode_snapshotOf distinct bound otherDecoded otherStored otherWhole population time
  rw [step, recordStart, count, own] at same
  exact (Except.ok.inj same).symm

end Raw

end Chunk

/-! ## A raw chunk -/

namespace RawChunk

def manifest : Manifest where
  fields := [
    ⟨"drift", .float32, .vector3, .empty, .array "drift", .extended⟩,
    ⟨"flag", .int8, .scalar, .empty, .array "flag", .standard⟩]

/-- Two particles. Two of the components are bit patterns that are no numbers. -/
def bytes : Bytes :=
  [0x53, 0x54, 0x45, 0x50, 7, 0, 0, 0x80, 0xFF, 0xFF, 0xFF, 0xFF, 0xFF, 0xFF, 0xFF, 0xFF,
    2, 0, 0, 0, 0, 0, 0, 0, 0, 26, 0, 0, 0, 0, 0, 0, 0, 26, 0, 0, 0, 0, 0, 0, 0, 225, 83, 55, 19,
    -- The drift of both particles, then their flags.
    0x01, 0x00, 0xA0, 0x7F, 0x00, 0x00, 0x00, 0x80, 0x00, 0x00, 0x80, 0x3F,
    0xFF, 0xFF, 0xFF, 0xFF, 0x00, 0x00, 0x80, 0xFF, 0x01, 0x00, 0x00, 0x00, 0x81, 0x7F]

def header : ChunkHeader := ⟨0x80000007, 0xFFFFFFFFFFFFFFFF, 2, .stored, 26, 26, 0x133753E1⟩

def values : List FieldData := [
  ⟨.float32, #[⟨0x7FA00001⟩, ⟨0x80000000⟩, ⟨0x3F800000⟩, ⟨0xFFFFFFFF⟩, ⟨0xFF800000⟩, ⟨1⟩]⟩,
  ⟨.int8, #[-127, 127]⟩]

theorem decode_bytes : Chunk.decode manifest bytes = .ok (header, values) :=
  Chunk.decode_eq_ok_iff.2
    ⟨rfl, by decide, by decide, by decide +kernel, bytes.drop ChunkHeader.size, rfl, rfl⟩

def time : Timestamp := ⟨2020, 1, 2, 3, 4, 5, 0⟩

theorem encode_of_decode_bytes :
    manifest.names.Nodup ∧ (∀ field ∈ manifest.fields, field.binding = .array field.name) ∧
      Chunk.decode manifest bytes = .ok (header, values) ∧ header.codec = .stored ∧
      bytes.length = ChunkHeader.size + header.storedLength.toNat ∧
      Chunk.encode manifest 0x80000007 0xFFFFFFFFFFFFFFFF
        (Chunk.snapshotOf manifest .base time 2 values) (.ofCodec .stored) = .ok bytes := by
  have distinct : manifest.names.Nodup := by decide
  have bound : ∀ field ∈ manifest.fields, field.binding = .array field.name := by decide
  refine ⟨distinct, bound, decode_bytes, rfl, rfl, ?_⟩
  exact (Chunk.encode_of_decode distinct bound decode_bytes rfl rfl .base time).1

end RawChunk

end RaggedTrajectory
