import RaggedTrajectory.Proofs.Chunk.Canonical
import RaggedTrajectory.Proofs.Reader.Structure

/-!
# A header has one form

The first 64 bytes of a file are the words of its header, and no other header has these words. The
bytes up to 256 are not read: they are zeros where a writer put them, and can be anything elsewhere.
So a header that was read is written again as the words it was read from, followed by zeros, and
whether bytes can be read as a header is a question of the numbers at the places of its words.

* `Header.decode_eq_ok_iff_words`: what is read are the words of a valid header.
* `Header.isHeader_iff`: the byte strings that start with a header, by the words at their places.
* `Header.decode_inverts_encode`: reading and writing of headers.
-/

namespace RaggedTrajectory

open LittleEndian (wordAt)

namespace Header

/-- The bytes that every file starts with: the letters `PTRJ`, and the bytes 0, 1, 0, 0. -/
def letters : Bytes := [0x50, 0x54, 0x52, 0x4A, 0, 1, 0, 0]

/-- The header whose words stand at their places in a byte string. -/
def ofWords (bytes : Bytes) (format : FileFormat) (codec : Codec) : Header where
  magic := UInt64.ofNat (wordAt bytes 0 8)
  versionMajor := UInt16.ofNat (wordAt bytes 8 2)
  versionMinor := UInt16.ofNat (wordAt bytes 10 2)
  format
  codec
  vectorWidth := UInt16.ofNat (wordAt bytes 14 2)
  stepCount := UInt32.ofNat (wordAt bytes 16 4)
  schemaOffset := UInt64.ofNat (wordAt bytes 20 8)
  schemaLength := UInt64.ofNat (wordAt bytes 28 8)
  tableOffset := UInt64.ofNat (wordAt bytes 36 8)
  dataOffset := UInt64.ofNat (wordAt bytes 44 8)
  recordLength := UInt64.ofNat (wordAt bytes 52 8)
  stepsWritten := UInt32.ofNat (wordAt bytes 60 4)

/-- A byte string that starts with a header, by the numbers at the places of the words. Offsets are
sums modulo `2 ^ 64`. -/
structure IsHeader (bytes : Bytes) : Prop where
  whole : 256 ≤ bytes.length
  magic : bytes.slice 0 8 = letters
  version : wordAt bytes 8 2 = 1 ∧ wordAt bytes 10 2 = 0
  format : ∃ format : FileFormat, wordAt bytes 12 1 = format.tag.toNat
  codec : ∃ codec : Codec, wordAt bytes 13 1 = codec.tag.toNat
  width : wordAt bytes 14 2 = 3
  schemaOffset : wordAt bytes 20 8 = 256
  tableOffset : wordAt bytes 36 8 = (256 + wordAt bytes 28 8) % 2 ^ 64
  dataOffset : wordAt bytes 44 8 =
    (256 + wordAt bytes 28 8 + 40 * wordAt bytes 16 4) % 2 ^ 64
  steps : wordAt bytes 60 4 ≤ wordAt bytes 16 4

/-! ## Words at places -/

/-- The words of a header stand one after the other. -/
theorem readWords_eq (bytes : Bytes) :
    (readWords bytes).1 =
      if UInt64.ofNat (wordAt bytes 0 8) ≠ expectedMagic then .error .invalidMagic
      else match FileFormat.ofTag? (UInt8.ofNat (wordAt bytes 12 1)),
          Codec.ofTag? (UInt8.ofNat (wordAt bytes 13 1)) with
        | none, _ => .error (.corrupt (.unknownFormatTag (wordAt bytes 12 1)))
        | _, none => .error (.corrupt (.unknownCodecTag (wordAt bytes 13 1)))
        | some format, some codec => .ok (ofWords bytes format codec) := by
  -- The reader drops what it has read, so a word is at the sum of the widths before it.
  simp only [readWords, LittleEndian.word, bind, StateT.bind, List.drop_drop]
  unfold ofWords wordAt Bytes.slice
  rw [List.drop_zero]
  split
  · rfl
  · cases FileFormat.ofTag? (UInt8.ofNat (LittleEndian.decode ((bytes.drop 12).take 1))) <;>
      cases Codec.ofTag? (UInt8.ofNat (LittleEndian.decode ((bytes.drop 13).take 1))) <;> rfl

/-- Words are read as a header if the magic number is right and both tags are known. -/
theorem readWords_eq_ok_iff {bytes : Bytes} {header : Header} :
    (readWords bytes).1 = .ok header ↔
      UInt64.ofNat (wordAt bytes 0 8) = expectedMagic ∧
      ∃ format codec, FileFormat.ofTag? (UInt8.ofNat (wordAt bytes 12 1)) = some format ∧
        Codec.ofTag? (UInt8.ofNat (wordAt bytes 13 1)) = some codec ∧
        header = ofWords bytes format codec := by
  rw [readWords_eq]
  split
  · next other => simp [other]
  · next same =>
    rw [Decidable.not_not] at same
    cases FileFormat.ofTag? (UInt8.ofNat (wordAt bytes 12 1)) <;>
      cases Codec.ofTag? (UInt8.ofNat (wordAt bytes 13 1)) <;> simp [same, eq_comm]

/-- The magic number is that of the letters. -/
theorem magic_iff {bytes : Bytes} (long : 8 ≤ bytes.length) :
    UInt64.ofNat (wordAt bytes 0 8) = expectedMagic ↔ bytes.slice 0 8 = letters := by
  have written : LittleEndian.encode 8 (wordAt bytes 0 8) = bytes.slice 0 8 :=
    LittleEndian.encode_wordAt long
  constructor
  · intro same
    rw [← written, ← LittleEndian.toNat_wordAt_eight, same]
    decide
  · intro same
    rw [wordAt, same]
    decide

/-- The words at their places, put one behind the other, are the front of the byte string. -/
theorem words_ofWords {bytes : Bytes} {format : FileFormat} {codec : Codec}
    (long : 64 ≤ bytes.length)
    (formatTag : FileFormat.ofTag? (UInt8.ofNat (wordAt bytes 12 1)) = some format)
    (codecTag : Codec.ofTag? (UInt8.ofNat (wordAt bytes 13 1)) = some codec) :
    (ofWords bytes format codec).words = bytes.take 64 := by
  have word (start width : Nat) (inside : start + width ≤ 64) :
      LittleEndian.encode width (wordAt bytes start width) = bytes.slice start width :=
    LittleEndian.encode_wordAt (Nat.le_trans inside long)
  -- A tag is a byte, so no other number stands for the format or for the codec.
  have formatWord : format.tag.toNat = wordAt bytes 12 1 := by
    rw [FileFormat.tag_of_ofTag? formatTag, LittleEndian.toNat_wordAt_one]
  have codecWord : codec.tag.toNat = wordAt bytes 13 1 := by
    rw [Codec.tag_of_ofTag? codecTag, LittleEndian.toNat_wordAt_one]
  simp only [words, ofWords, formatWord, codecWord, LittleEndian.toNat_wordAt_eight,
    LittleEndian.toNat_wordAt_four, LittleEndian.toNat_wordAt_two]
  rw [word 0 8 (by decide), word 8 2 (by decide), word 10 2 (by decide), word 12 1 (by decide),
    word 13 1 (by decide), word 14 2 (by decide), word 16 4 (by decide), word 20 8 (by decide),
    word 28 8 (by decide), word 36 8 (by decide), word 44 8 (by decide), word 52 8 (by decide),
    word 60 4 (by decide)]
  -- Each word starts where the one before it ends.
  rw [bytes.slice_append_slice 52 8 4, bytes.slice_append_slice 44 8 12,
    bytes.slice_append_slice 36 8 20, bytes.slice_append_slice 28 8 28,
    bytes.slice_append_slice 20 8 36, bytes.slice_append_slice 16 4 44,
    bytes.slice_append_slice 14 2 48, bytes.slice_append_slice 13 1 50,
    bytes.slice_append_slice 12 1 51, bytes.slice_append_slice 10 2 52,
    bytes.slice_append_slice 8 2 54, bytes.slice_append_slice 0 8 56]
  rfl

/-! ## What is read -/

/-- The bytes that are read as a header are those that start with its words, if it is valid. -/
theorem decode_eq_ok_iff_words {overflow : Overflow} {bytes : Bytes} {header : Header} :
    decode overflow bytes = .ok header ↔
      header.validate overflow = .ok () ∧ size ≤ bytes.length ∧ header.words = bytes.take 64 := by
  rw [decode_eq_ok_iff]
  constructor
  · rintro ⟨whole, read, valid⟩
    have long : 64 ≤ bytes.length := Nat.le_trans (by decide) whole
    obtain ⟨-, format, codec, formatTag, codecTag, rfl⟩ := readWords_eq_ok_iff.1 read
    exact ⟨valid, whole, words_ofWords long formatTag codecTag⟩
  · rintro ⟨valid, whole, same⟩
    have magic : header.magic = expectedMagic := (validate_eq_ok_iff.1 valid).1
    have read := readWords_words header (bytes.drop 64) magic
    rw [same, List.take_append_drop] at read
    exact ⟨whole, read, valid⟩

/-- A header that was read is written as the words it was read from, and zeros. -/
theorem encode_eq_of_decode {overflow : Overflow} {bytes : Bytes} {header : Header}
    (decoded : decode overflow bytes = .ok header) :
    header.encode = bytes.take 64 ++ List.replicate 192 0 := by
  rw [encode, (decode_eq_ok_iff_words.1 decoded).2.2]

/-! ## What is accepted -/

section Accepted

variable {overflow : Overflow} {bytes : Bytes} {format : FileFormat} {codec : Codec}

/-- The regions at their places are consecutive if their offsets are sums modulo `2 ^ 64`. -/
theorem hasConsecutiveRegions_ofWords :
    (ofWords bytes format codec).HasConsecutiveRegions ↔
      wordAt bytes 20 8 = 256 ∧
      wordAt bytes 36 8 = (256 + wordAt bytes 28 8) % 2 ^ 64 ∧
      wordAt bytes 44 8 = (256 + wordAt bytes 28 8 + 40 * wordAt bytes 16 4) % 2 ^ 64 := by
  have first : (UInt64.ofNat size).toNat = 256 := rfl
  -- The header adds words, which wrap one sum after the other; the numbers wrap once at the end.
  rw [HasConsecutiveRegions]
  simp only [ofWords, ← UInt64.toNat_inj, UInt64.toNat_add, Header.toNat_tableLength,
    LittleEndian.toNat_wordAt_eight, LittleEndian.toNat_wordAt_four, first]
  constructor
  · rintro ⟨schema, table, data⟩
    rw [schema] at table data
    exact ⟨schema, table, by rw [data]; unfold entrySize; omega⟩
  · rintro ⟨schema, table, data⟩
    rw [schema]
    exact ⟨rfl, table, by rw [data]; unfold entrySize; omega⟩

theorem regionsEnd_ofWords (first : wordAt bytes 20 8 = 256) :
    (ofWords bytes format codec).regionsEnd =
      256 + wordAt bytes 28 8 + 40 * wordAt bytes 16 4 := by
  simp only [regionsEnd, ofWords, LittleEndian.toNat_wordAt_eight, LittleEndian.toNat_wordAt_four]
  rw [first, entrySize, Nat.mul_comm]

/-- The words at their places make up a valid header if they are the words of one and, where sums
stop, its regions end at a word. -/
theorem validate_ofWords :
    (ofWords bytes format codec).validate overflow = .ok () ↔
      UInt64.ofNat (wordAt bytes 0 8) = expectedMagic ∧
      (wordAt bytes 8 2 = 1 ∧ wordAt bytes 10 2 = 0) ∧ wordAt bytes 14 2 = 3 ∧
      ((wordAt bytes 20 8 = 256 ∧
        wordAt bytes 36 8 = (256 + wordAt bytes 28 8) % 2 ^ 64 ∧
        wordAt bytes 44 8 = (256 + wordAt bytes 28 8 + 40 * wordAt bytes 16 4) % 2 ^ 64) ∧
      (overflow = .stops → 256 + wordAt bytes 28 8 + 40 * wordAt bytes 16 4 < 2 ^ 64)) ∧
      wordAt bytes 60 4 ≤ wordAt bytes 16 4 := by
  rw [validate_eq_ok_iff, hasConsistentOffsets_eq_true_iff, hasConsecutiveRegions_ofWords,
    UInt32.le_iff_toNat_le, ← UInt16.toNat_inj, ← UInt16.toNat_inj]
  -- The regions end at the sum of the words once the schema block is known to start at 256.
  refine and_congr Iff.rfl (and_congr ?_ (and_congr ?_ (and_congr ?_ ?_)))
  · simp only [ofWords, LittleEndian.toNat_wordAt_two]
    exact Iff.rfl
  · simp only [ofWords, LittleEndian.toNat_wordAt_two]
    exact Iff.rfl
  · exact and_congr_right fun offsets => by rw [regionsEnd_ofWords offsets.1]
  · simp only [ofWords, LittleEndian.toNat_wordAt_four]

end Accepted

/-- A byte string can be read as a header if it starts with one and, where sums stop, the regions
end at a word. -/
theorem isHeader_iff {overflow : Overflow} {bytes : Bytes} :
    (∃ header, decode overflow bytes = .ok header) ↔
      IsHeader bytes ∧
        (overflow = .stops → 256 + wordAt bytes 28 8 + 40 * wordAt bytes 16 4 < 2 ^ 64) := by
  constructor
  · rintro ⟨header, decoded⟩
    obtain ⟨whole, read, valid⟩ := decode_eq_ok_iff.1 decoded
    obtain ⟨magic, format, codec, formatTag, codecTag, rfl⟩ := readWords_eq_ok_iff.1 read
    obtain ⟨-, version, width, ⟨⟨schema, table, data⟩, fits⟩, steps⟩ := validate_ofWords.1 valid
    refine ⟨⟨whole, (magic_iff (Nat.le_trans (by decide) whole)).1 magic, version, ⟨format, ?_⟩,
      ⟨codec, ?_⟩, width, schema, table, data, steps⟩, fits⟩
    · rw [FileFormat.tag_of_ofTag? formatTag, LittleEndian.toNat_wordAt_one]
    · rw [Codec.tag_of_ofTag? codecTag, LittleEndian.toNat_wordAt_one]
  · rintro ⟨⟨whole, magic, version, ⟨format, formatTag⟩, ⟨codec, codecTag⟩, width, schema, table,
      data, steps⟩, fits⟩
    have number := (magic_iff (Nat.le_trans (by decide) whole)).2 magic
    refine ⟨ofWords bytes format codec, decode_eq_ok_iff.2 ⟨whole, readWords_eq_ok_iff.2 ⟨number,
      format, codec, ?_, ?_, rfl⟩, validate_ofWords.2
        ⟨number, version, width, ⟨⟨schema, table, data⟩, fits⟩, steps⟩⟩⟩
    · rw [formatTag, UInt8.ofNat_toNat, FileFormat.ofTag?_tag]
    · rw [codecTag, UInt8.ofNat_toNat, Codec.ofTag?_tag]

/-! ## New headers -/

section New

variable (format : FileFormat) (codec : Codec) (stepCount : UInt32) (schemaLength : UInt64)

/-- Where the table of a new header ends, as an exact number. -/
theorem regionsEnd_create :
    (create format codec stepCount schemaLength).regionsEnd =
      256 + schemaLength.toNat + 40 * stepCount.toNat := by
  rw [Nat.mul_comm 40]
  rfl

/-- The header of a new file is valid; where sums stop, if its regions end at a word. -/
theorem validate_create_iff (overflow : Overflow) :
    (create format codec stepCount schemaLength).validate overflow = .ok () ↔
      (overflow = .stops → 256 + schemaLength.toNat + 40 * stepCount.toNat < 2 ^ 64) := by
  rw [validate_eq_ok_iff, hasConsistentOffsets_eq_true_iff, regionsEnd_create]
  exact ⟨fun valid => valid.2.2.2.1.2, fun fits =>
    ⟨rfl, ⟨rfl, rfl⟩, rfl, ⟨⟨rfl, rfl, rfl⟩, fits⟩, UInt32.zero_le⟩⟩

/-- The offsets of a new header are exact if its regions end at a word. -/
theorem toNat_offsets_create (fits : 256 + schemaLength.toNat + 40 * stepCount.toNat < 2 ^ 64) :
    (create format codec stepCount schemaLength).tableOffset.toNat = 256 + schemaLength.toNat ∧
      (create format codec stepCount schemaLength).dataOffset.toNat =
        256 + schemaLength.toNat + 40 * stepCount.toNat := by
  have valid := (validate_create_iff format codec stepCount schemaLength .stops).2 fun _ => fits
  rw [← regionsEnd_create format codec stepCount schemaLength] at fits ⊢
  obtain ⟨-, -, -, consistent, -⟩ := validate_eq_ok_iff.1 valid
  obtain ⟨-, table, data⟩ :=
    (hasConsecutiveRegions_iff fits).1 (hasConsistentOffsets_eq_true_iff.1 consistent).1
  exact ⟨table, data⟩

end New

/-- Reading and writing of headers. A valid header has 256 bytes and is read back from them,
whatever follows. What is read is valid, and it is written as the words it was read from and zeros.
Where sums wrap, it is read from the byte strings that start with a header and from no others; where
they stop, the regions also have to end at a word. The header of a new file is such a one. -/
theorem decode_inverts_encode :
    (∀ (overflow : Overflow) (header : Header) (rest : Bytes), header.validate overflow = .ok () →
      header.encode.length = 256 ∧ decode overflow (header.encode ++ rest) = .ok header) ∧
    (∀ (overflow : Overflow) (bytes : Bytes) (header : Header),
      decode overflow bytes = .ok header → header.validate overflow = .ok () ∧
        header.encode = bytes.take 64 ++ List.replicate 192 0) ∧
    (∀ bytes : Bytes, ((∃ header, decode .wraps bytes = .ok header) ↔ IsHeader bytes) ∧
      ((∃ header, decode .stops bytes = .ok header) ↔
        IsHeader bytes ∧ 256 + wordAt bytes 28 8 + 40 * wordAt bytes 16 4 < 2 ^ 64)) ∧
    ∀ (format : FileFormat) (codec : Codec) (stepCount : UInt32) (schemaLength : UInt64),
      (create format codec stepCount schemaLength).validate .wraps = .ok () ∧
      (256 + schemaLength.toNat + 40 * stepCount.toNat < 2 ^ 64 →
        (create format codec stepCount schemaLength).validate .stops = .ok () ∧
          (create format codec stepCount schemaLength).tableOffset.toNat =
            256 + schemaLength.toNat ∧
          (create format codec stepCount schemaLength).dataOffset.toNat =
            256 + schemaLength.toNat + 40 * stepCount.toNat) := by
  refine ⟨fun overflow header rest valid => ⟨header.length_encode, decode_encode valid rest⟩,
    fun overflow bytes header decoded =>
      ⟨(decode_eq_ok_iff_words.1 decoded).1, encode_eq_of_decode decoded⟩,
    fun bytes => ⟨?_, ?_⟩, fun format codec stepCount schemaLength => ⟨?_, fun fits => ⟨?_, ?_⟩⟩⟩
  · rw [isHeader_iff]
    simp only [reduceCtorEq, false_imp_iff, and_true]
  · rw [isHeader_iff]
    simp only [true_imp_iff]
  · exact (validate_create_iff format codec stepCount schemaLength .wraps).2 fun stops =>
      nomatch stops
  · exact (validate_create_iff format codec stepCount schemaLength .stops).2 fun _ => fits
  · exact toNat_offsets_create format codec stepCount schemaLength fits

namespace Finished

/-- The header of a file whose three steps are written. -/
def header : Header :=
  { create .classic .lz4 3 512 with recordLength := 7, stepsWritten := 3 }

/-- Bytes that start with the words of this header and go on with others. -/
def bytes : Bytes := header.words ++ List.replicate 200 0xFF

end Finished

/-- The bytes behind the words are not read, and are not kept. -/
theorem decode_inverts_encode_finished :
    Finished.header.validate .stops = .ok () ∧
      decode .stops (Finished.header.encode ++ [1, 2, 3]) = .ok Finished.header ∧
      decode .wraps Finished.bytes = .ok Finished.header ∧
      Finished.header.encode ≠ Finished.bytes.take 256 ∧ IsHeader Finished.bytes ∧
      (create .classic .lz4 3 512).dataOffset.toNat = 888 := by
  have valid (overflow : Overflow) : Finished.header.validate overflow = .ok () :=
    validate_eq_ok_iff.2 ⟨rfl, ⟨rfl, rfl⟩, rfl, hasConsistentOffsets_eq_true_iff.2
      ⟨by decide +kernel, fun _ => by decide +kernel⟩, by decide⟩
  have decoded : decode .wraps Finished.bytes = .ok Finished.header :=
    decode_eq_ok_iff_words.2
      ⟨valid .wraps, by decide +kernel, (List.take_left' (length_words _)).symm⟩
  obtain ⟨written, -, readable, new⟩ := decode_inverts_encode
  exact ⟨valid .stops, (written .stops Finished.header [1, 2, 3] (valid .stops)).2, decoded,
    by decide +kernel, (readable Finished.bytes).1.1 ⟨_, decoded⟩,
    ((new .classic .lz4 3 512).2 (by decide)).2.2⟩

end Header

end RaggedTrajectory
