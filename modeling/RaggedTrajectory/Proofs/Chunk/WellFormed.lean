import RaggedTrajectory.Proofs.Records
import RaggedTrajectory.Proofs.Segments

/-!
# Which byte strings are chunks

A reader of chunks is given any bytes. The lengths it finds in the header are not covered by the
checksum, so each is compared with something else: the length of the payload with the bytes that
are there, the length of the raw payload with the manifest, and the raw payload itself with its
length. The columns of the fields are then cut off one after the other, and together they are the
whole raw payload.

* `Chunk.IsWellFormed`: the byte strings that are chunks, by the places of the words in them.
* `Chunk.exists_decode_of_isWellFormed`, `Chunk.isWellFormed_of_decode`: these are the byte strings
  that are accepted.
* `Chunk.isCutInto_of_decode`: how their raw payloads are cut.
-/

namespace RaggedTrajectory

open LittleEndian (wordAt)

/-! ## Words at places -/

namespace LittleEndian

theorem wordAt_lt (bytes : Bytes) (start width : Nat) : wordAt bytes start width < 256 ^ width := by
  have short : (bytes.slice start width).length ≤ width := by
    rw [Bytes.length_slice]
    exact Nat.min_le_left _ _
  exact Nat.lt_of_lt_of_le (decode_lt _) (Nat.pow_le_pow_right (by decide) short)

section Words

variable (bytes : Bytes) (start : Nat)

theorem toNat_wordAt_eight : (UInt64.ofNat (wordAt bytes start 8)).toNat = wordAt bytes start 8 :=
  UInt64.toNat_ofNat_of_lt' (wordAt_lt bytes start 8)

theorem toNat_wordAt_four : (UInt32.ofNat (wordAt bytes start 4)).toNat = wordAt bytes start 4 :=
  UInt32.toNat_ofNat_of_lt' (wordAt_lt bytes start 4)

theorem toNat_wordAt_two : (UInt16.ofNat (wordAt bytes start 2)).toNat = wordAt bytes start 2 :=
  UInt16.toNat_ofNat_of_lt' (wordAt_lt bytes start 2)

theorem toNat_wordAt_one : (UInt8.ofNat (wordAt bytes start 1)).toNat = wordAt bytes start 1 :=
  UInt8.toNat_ofNat_of_lt' (wordAt_lt bytes start 1)

end Words

end LittleEndian

namespace ChunkHeader

/-- The header whose words stand at their places in a byte string. -/
def ofWords (bytes : Bytes) (codec : Codec) : ChunkHeader where
  step := UInt32.ofNat (wordAt bytes 4 4)
  recordStart := UInt64.ofNat (wordAt bytes 8 8)
  count := UInt64.ofNat (wordAt bytes 16 8)
  codec
  rawLength := UInt64.ofNat (wordAt bytes 25 8)
  storedLength := UInt64.ofNat (wordAt bytes 33 8)
  checksum := UInt32.ofNat (wordAt bytes 41 4)

/-- The codec whose tag stands in a byte string. -/
def codecIn? (bytes : Bytes) : Option Codec := Codec.ofTag? (UInt8.ofNat (wordAt bytes 24 1))

section Words

variable (bytes : Bytes) (codec : Codec)

@[simp]
theorem step_ofWords : (ofWords bytes codec).step.toNat = wordAt bytes 4 4 :=
  LittleEndian.toNat_wordAt_four bytes 4

@[simp]
theorem recordStart_ofWords : (ofWords bytes codec).recordStart.toNat = wordAt bytes 8 8 :=
  LittleEndian.toNat_wordAt_eight bytes 8

@[simp]
theorem count_ofWords : (ofWords bytes codec).count.toNat = wordAt bytes 16 8 :=
  LittleEndian.toNat_wordAt_eight bytes 16

@[simp]
theorem rawLength_ofWords : (ofWords bytes codec).rawLength.toNat = wordAt bytes 25 8 :=
  LittleEndian.toNat_wordAt_eight bytes 25

@[simp]
theorem storedLength_ofWords : (ofWords bytes codec).storedLength.toNat = wordAt bytes 33 8 :=
  LittleEndian.toNat_wordAt_eight bytes 33

@[simp]
theorem checksum_ofWords : (ofWords bytes codec).checksum.toNat = wordAt bytes 41 4 :=
  LittleEndian.toNat_wordAt_four bytes 41

end Words

/-- The words of a header stand one after the other. -/
theorem readWords_eq (bytes : Bytes) :
    (readWords (bytes.drop 4)).1 =
      match codecIn? bytes with
      | none => .error (.corrupt (.unknownCodecTag (wordAt bytes 24 1)))
      | some codec => .ok (ofWords bytes codec) := by
  -- The reader drops what it has read, so a word is at the sum of the widths before it.
  simp only [readWords, LittleEndian.word, bind, StateT.bind, List.drop_drop]
  unfold codecIn? ofWords wordAt Bytes.slice
  cases Codec.ofTag? (UInt8.ofNat (LittleEndian.decode ((bytes.drop 24).take 1))) <;> rfl

/-- The header is there in full, with its letters and a known tag. -/
theorem decode_eq_ok_iff {bytes : Bytes} {header : ChunkHeader} :
    decode bytes = .ok header ↔ size ≤ bytes.length ∧ bytes.slice 0 4 = magic ∧
      ∃ codec, codecIn? bytes = some codec ∧ header = ofWords bytes codec := by
  have letters : bytes.take 4 = bytes.slice 0 4 := rfl
  rw [decode, readWords_eq, letters]
  split
  · next short => simp [Nat.not_le.2 short]
  · next long =>
      split
      · next other => simp [other]
      · next same =>
          rw [Decidable.not_not] at same
          cases codecIn? bytes <;> simp [Nat.not_lt.1 long, same, eq_comm]

end ChunkHeader

/-! ## What is accepted -/

/-- Decompression puts out as many bytes as it is asked for. -/
theorem Codec.length_of_decompress {stored raw : Bytes} {codec : Codec} {length : Nat}
    (made : codec.decompress stored length = .ok raw) : raw.length = length := by
  -- The length is compared after the codec is done, whichever codec it was.
  unfold decompress at made
  cases codec <;> dsimp only at made <;> (try split at made) <;>
    simp only [Error.bind_eq_ok_iff, Error.guard_eq_ok_iff] at made
  all_goals
    obtain ⟨data, -, same, kept⟩ := made
    cases kept
    exact Decidable.not_not.1 same

namespace Chunk

/-- The payload as it is stored. -/
def storedIn (bytes : Bytes) : Bytes := bytes.slice ChunkHeader.size (wordAt bytes 33 8)

/-- A byte string that is a chunk of a manifest, whatever follows it. -/
structure IsWellFormed (manifest : Manifest) (bytes : Bytes) : Prop where
  headed : ChunkHeader.size ≤ bytes.length
  magic : bytes.slice 0 4 = ChunkHeader.magic
  whole : ChunkHeader.size + wordAt bytes 33 8 ≤ bytes.length
  /-- The length of the raw payload is a word, so the product is one. -/
  sized : wordAt bytes 16 8 * manifest.stride = wordAt bytes 25 8
  intact : (Crc32.checksum (storedIn bytes)).toNat = wordAt bytes 41 4
  content : ∃ codec raw, ChunkHeader.codecIn? bytes = some codec ∧
    codec.decompress (storedIn bytes) (wordAt bytes 25 8) = .ok raw ∧
    raw.length = wordAt bytes 25 8

/-- The checks behind the header, one after the other. -/
theorem decode_eq_ok_iff {manifest : Manifest} {bytes : Bytes} {header : ChunkHeader}
    {fields : List FieldData} :
    decode manifest bytes = .ok (header, fields) ↔
      ChunkHeader.decode bytes = .ok header ∧
      ChunkHeader.size + header.storedLength.toNat ≤ bytes.length ∧
      header.rawLength.toNat = header.count.toNat * manifest.stride ∧
      Crc32.checksum (bytes.slice ChunkHeader.size header.storedLength.toNat) = header.checksum ∧
      ∃ raw, header.codec.decompress (bytes.slice ChunkHeader.size header.storedLength.toNat)
          (header.count.toNat * manifest.stride) = .ok raw ∧
        columns header.count.toNat manifest.fields raw = .ok fields := by
  unfold decode
  simp only [Error.bind_eq_ok_iff, Error.guard_eq_ok_iff]
  constructor
  · rintro ⟨read, first, long, sized, intact, raw, back, cut, own, same⟩
    cases same
    exact ⟨first, Nat.not_lt.1 long, Decidable.not_not.1 sized, Decidable.not_not.1 intact, raw,
      back, own⟩
  · rintro ⟨first, long, sized, intact, raw, back, own⟩
    exact ⟨header, first, Nat.not_lt.2 long, not_not_intro sized, not_not_intro intact, raw, back,
      fields, own, rfl⟩

/-! ## Columns -/

/-- The bytes of a field in a raw payload. -/
def columnLength (count : Nat) (field : Field) : Nat := count * field.width * field.dtype.size

/-- Where the column of a field starts: behind those of the fields before it. -/
def columnStart (count : Nat) (fields : List Field) (index : Nat) : Nat :=
  segmentStart (fields.map (columnLength count)) index

/-- All columns together have the bytes that the strides of the fields say. -/
theorem sumOf_columnLength (count : Nat) (fields : List Field) :
    sumOf (fields.map (columnLength count)) = count * sumOf (fields.map Field.stride) := by
  induction fields with
  | nil => rfl
  | cons field fields ih =>
    rw [List.map_cons, sumOf_cons, ih, List.map_cons, sumOf_cons, Nat.mul_add, columnLength,
      Field.stride, Nat.mul_assoc, Nat.mul_comm field.width]

/-- The values of the fields are cut out of a raw payload: the columns are inside it, follow each
other without a gap and end where it ends, and each has the type of its field and a value for every
place. -/
structure IsCutInto (count : Nat) (fields : List Field) (raw : Bytes) (values : List FieldData) :
    Prop where
  covers : sumOf (fields.map (columnLength count)) = raw.length
  length : values.length = fields.length
  column : ∀ index field, fields[index]? = some field → ∃ data, values[index]? = some data ∧
    columnStart count fields index + columnLength count field ≤ raw.length ∧
    FieldData.decode field.dtype
      (raw.slice (columnStart count fields index) (columnLength count field)) = .ok data ∧
    data.dtype = field.dtype ∧ data.length = count * field.width

/-- Bytes of whole elements are as many values. -/
theorem exists_decode_of_length (dtype : DataType) (bytes : Bytes) (count : Nat)
    (whole : bytes.length = count * dtype.size) :
    ∃ data, FieldData.decode dtype bytes = .ok data ∧ data.dtype = dtype ∧ data.length = count := by
  have remainder : bytes.length % dtype.size = 0 := by rw [whole, Nat.mul_mod_left]
  refine ⟨_, if_pos remainder, rfl, ?_⟩
  rw [FieldData.length, List.size_toArray, FieldData.length_decodeElements, whole,
    Nat.mul_div_cancel _ dtype.size_pos]

/-- A raw payload of the right length is cut into its columns. -/
theorem exists_columns_of_length (count : Nat) (fields : List Field) (raw : Bytes)
    (long : raw.length = count * sumOf (fields.map Field.stride)) :
    ∃ values, columns count fields raw = .ok values ∧ IsCutInto count fields raw values := by
  induction fields generalizing raw with
  | nil =>
    have none : raw.length = 0 := by simpa using long
    exact ⟨[], rfl, none.symm, rfl, fun index field found => by cases found⟩
  | cons field fields ih =>
    -- All columns together are as long as the raw payload, so the first one is inside.
    have covers := (sumOf_columnLength count (field :: fields)).trans long.symm
    have first : columnLength count field ≤ raw.length := by
      rw [List.map_cons, sumOf_cons] at covers
      omega
    obtain ⟨data, own, dtype, number⟩ := exists_decode_of_length field.dtype
      (raw.take (columnLength count field)) (count * field.width)
      (by rw [List.length_take, Nat.min_eq_left first]; rfl)
    obtain ⟨values, others, cut⟩ := ih (raw.drop (columnLength count field)) (by
      rw [List.map_cons, sumOf_cons] at covers
      rw [List.length_drop, ← sumOf_columnLength]
      omega)
    have rest : (raw.drop (columnLength count field)).length =
        raw.length - columnLength count field := List.length_drop
    refine ⟨data :: values, ?_, covers, by rw [List.length_cons, List.length_cons, cut.length], ?_⟩
    · have own : FieldData.decode field.dtype
          (raw.take (count * field.width * field.dtype.size)) = .ok data := own
      have others : columns count fields (raw.drop (count * field.width * field.dtype.size)) =
          .ok values := others
      simp only [columns, own, others, bind, Except.bind, pure, Except.pure]
    · rintro (_ | index) other found
      · cases found
        exact ⟨data, rfl, by rw [columnStart, segmentStart_zero]; omega, own, dtype, number⟩
      · obtain ⟨value, mem, inside, decoded, kind, places⟩ := cut.column index other found
        -- A column of the rest is the same bytes, that much further on.
        have start : columnStart count (field :: fields) (index + 1) =
          columnLength count field + columnStart count fields index := rfl
        refine ⟨value, mem, by rw [start]; omega, ?_, kind, places⟩
        rw [start]
        rw [Bytes.slice, List.drop_drop] at decoded
        exact decoded

/-! ## The chunks that are accepted -/

/-- Every well-formed byte string is accepted, and its columns are cut out of the raw payload. -/
theorem exists_decode_of_isWellFormed {manifest : Manifest} {bytes : Bytes}
    (wellFormed : IsWellFormed manifest bytes) :
    ∃ header fields, decode manifest bytes = .ok (header, fields) := by
  obtain ⟨headed, magic, whole, sized, intact, codec, raw, tag, back, long⟩ := wellFormed
  obtain ⟨values, cut, -⟩ := exists_columns_of_length (wordAt bytes 16 8) manifest.fields raw
    (long.trans sized.symm)
  -- The words of the header are the words at their places, so each check is one of the conditions.
  refine ⟨.ofWords bytes codec, values, decode_eq_ok_iff.2 ⟨?_, ?_, ?_, ?_, raw, ?_, ?_⟩⟩
  · exact ChunkHeader.decode_eq_ok_iff.2 ⟨headed, magic, codec, tag, rfl⟩
  · rwa [ChunkHeader.storedLength_ofWords]
  · rw [ChunkHeader.rawLength_ofWords, ChunkHeader.count_ofWords, sized]
  · rw [← UInt32.toNat_inj, ChunkHeader.storedLength_ofWords, ChunkHeader.checksum_ofWords]
    exact intact
  · rw [ChunkHeader.storedLength_ofWords, ChunkHeader.count_ofWords, sized]
    exact back
  · rwa [ChunkHeader.count_ofWords]

/-- What is accepted is well-formed. -/
theorem isWellFormed_of_decode {manifest : Manifest} {bytes : Bytes} {header : ChunkHeader}
    {fields : List FieldData} (decoded : decode manifest bytes = .ok (header, fields)) :
    IsWellFormed manifest bytes := by
  obtain ⟨first, whole, sized, intact, raw, back, -⟩ := decode_eq_ok_iff.1 decoded
  obtain ⟨headed, magic, codec, tag, rfl⟩ := ChunkHeader.decode_eq_ok_iff.1 first
  rw [ChunkHeader.rawLength_ofWords, ChunkHeader.count_ofWords] at sized
  rw [ChunkHeader.storedLength_ofWords] at whole intact back
  rw [ChunkHeader.count_ofWords, ← sized] at back
  refine ⟨headed, magic, whole, sized.symm, ?_, codec, raw, tag, back,
    Codec.length_of_decompress back⟩
  rw [← ChunkHeader.checksum_ofWords bytes codec, ← intact]
  rfl

/-- The columns of what is accepted are cut out of its raw payload. -/
theorem isCutInto_of_decode {manifest : Manifest} {bytes : Bytes} {header : ChunkHeader}
    {fields : List FieldData} (decoded : decode manifest bytes = .ok (header, fields)) :
    ∃ raw, header.codec.decompress (storedIn bytes) header.rawLength.toNat = .ok raw ∧
      raw.length = header.rawLength.toNat ∧
      IsCutInto header.count.toNat manifest.fields raw fields := by
  obtain ⟨first, -, sized, -, raw, back, cut⟩ := decode_eq_ok_iff.1 decoded
  have long := Codec.length_of_decompress back
  -- A payload of this length is always cut, so what was made of it are its columns.
  obtain ⟨values, same, parts⟩ :=
    exists_columns_of_length header.count.toNat manifest.fields raw long
  cases same.symm.trans cut
  obtain ⟨-, -, codec, -, words⟩ := ChunkHeader.decode_eq_ok_iff.1 first
  have stored : storedIn bytes = bytes.slice ChunkHeader.size header.storedLength.toNat := by
    rw [words, ChunkHeader.storedLength_ofWords]
    rfl
  rw [stored, sized]
  exact ⟨raw, back, long, parts⟩

end Chunk

end RaggedTrajectory
