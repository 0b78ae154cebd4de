import RaggedTrajectory.Chunk
import RaggedTrajectory.Proofs.Patches
import RaggedTrajectory.StepTable

/-!
# Records are read back

Headers, table entries and chunk headers are concatenations of little-endian words. A reader of
words undoes the writer whatever follows, because each word is read back at its own width.

* `Header.decode_encode`: a valid header is read back, whatever follows it.
* `StepTable.decode_flatMap_encode`: the entries of a table are read back in their order.
* `ChunkHeader.decode_encode`: a chunk header is read back, whatever follows it.
-/

namespace RaggedTrajectory

namespace LittleEndian

/-- A word of 64 bits is read back. -/
@[simp]
theorem word_uint64 (value : UInt64) (rest : Bytes) :
    word 8 (encode 8 value.toNat ++ rest) = (value.toNat, rest) :=
  word_append rest (by have := value.toNat_lt; omega)

/-- A word of 32 bits is read back. -/
@[simp]
theorem word_uint32 (value : UInt32) (rest : Bytes) :
    word 4 (encode 4 value.toNat ++ rest) = (value.toNat, rest) :=
  word_append rest (by have := value.toNat_lt; omega)

/-- A word of 16 bits is read back. -/
@[simp]
theorem word_uint16 (value : UInt16) (rest : Bytes) :
    word 2 (encode 2 value.toNat ++ rest) = (value.toNat, rest) :=
  word_append rest (by have := value.toNat_lt; omega)

/-- A byte is read back. -/
@[simp]
theorem word_uint8 (value : UInt8) (rest : Bytes) :
    word 1 (encode 1 value.toNat ++ rest) = (value.toNat, rest) :=
  word_append rest (by have := value.toNat_lt; omega)

/-- A truth value in a word of 32 bits is read back. -/
@[simp]
theorem word_truth (value : Bool) (rest : Bytes) :
    word 4 (encode 4 (if value then 1 else 0) ++ rest) = ((if value then 1 else 0), rest) :=
  word_append rest (by split <;> decide)

end LittleEndian

namespace Header

/-- The words of a header are read back if its magic number is the expected one. -/
theorem readWords_words (header : Header) (rest : Bytes) (magic : header.magic = expectedMagic) :
    (readWords (header.words ++ rest)).1 = .ok header := by
  simp only [readWords, words, List.append_assoc, bind, StateT.bind, LittleEndian.word_uint64,
    LittleEndian.word_uint32, LittleEndian.word_uint16, LittleEndian.word_uint8,
    UInt64.ofNat_toNat, UInt32.ofNat_toNat, UInt16.ofNat_toNat, UInt8.ofNat_toNat,
    FileFormat.ofTag?_tag, Codec.ofTag?_tag, magic, pure]
  -- The magic number is compared before anything behind it is looked at.
  rw [if_neg (not_not_intro rfl), ← magic]
  rfl

/-- The words of a header that never change after the file was made. -/
def fixedWords (header : Header) : Bytes :=
  LittleEndian.encode 8 header.magic.toNat ++
  (LittleEndian.encode 2 header.versionMajor.toNat ++
  (LittleEndian.encode 2 header.versionMinor.toNat ++
  (LittleEndian.encode 1 header.format.tag.toNat ++
  (LittleEndian.encode 1 header.codec.tag.toNat ++
  (LittleEndian.encode 2 header.vectorWidth.toNat ++
  (LittleEndian.encode 4 header.stepCount.toNat ++
  (LittleEndian.encode 8 header.schemaOffset.toNat ++
  (LittleEndian.encode 8 header.schemaLength.toNat ++
  (LittleEndian.encode 8 header.tableOffset.toNat ++
  LittleEndian.encode 8 header.dataOffset.toNat)))))))))

@[simp]
theorem length_fixedWords (header : Header) : header.fixedWords.length = 52 := by
  simp [fixedWords]

/-- The counters of a header. -/
def counterWords (header : Header) : Bytes :=
  LittleEndian.encode 8 header.recordLength.toNat ++
  LittleEndian.encode 4 header.stepsWritten.toNat

@[simp]
theorem length_counterWords (header : Header) : header.counterWords.length = 12 := by
  simp [counterWords]

/-- A header is its fixed words, its counters, and zeros. -/
theorem encode_eq_append (header : Header) :
    header.encode =
      header.fixedWords ++ (header.counterWords ++ List.replicate 192 0) := by
  simp only [encode, words, fixedWords, counterWords, List.append_assoc]

/-- Headers that differ in their counters alone have the same bytes elsewhere. -/
theorem getElem?_encode {header other : Header} (fixed : other.fixedWords = header.fixedWords)
    {i : Nat} (apart : ¬(52 ≤ i ∧ i < 64)) : other.encode[i]? = header.encode[i]? := by
  have same : other.counterWords.length = header.counterWords.length := by
    rw [length_counterWords, length_counterWords]
  rw [encode_eq_append, encode_eq_append, fixed]
  refine Bytes.getElem?_middle _ _ same ?_
  rw [length_fixedWords, length_counterWords]
  omega

section Valid

variable {overflow : Overflow}

/-- What `validate` accepts, field by field. -/
theorem validate_eq_ok_iff {header : Header} :
    header.validate overflow = .ok () ↔
      header.magic = expectedMagic ∧ (header.versionMajor = 1 ∧ header.versionMinor = 0) ∧
      header.vectorWidth.toNat = RaggedTrajectory.vectorWidth ∧
      header.hasConsistentOffsets overflow = .ok true ∧ header.stepsWritten ≤ header.stepCount := by
  unfold validate
  by_cases magic : header.magic = expectedMagic
  · by_cases version : header.versionMajor = 1 ∧ header.versionMinor = 0
    · by_cases width : header.vectorWidth.toNat = RaggedTrajectory.vectorWidth
      · cases offsets : header.hasConsistentOffsets overflow with
        | error e => simp [*, bind, Except.bind]
        | ok consistent => cases consistent <;> simp [*, bind, Except.bind]
      · simp [*]
    · have other := Decidable.not_and_iff_or_not.1 version
      simp [*]
  · simp [magic]

/-- A valid header is read back, whatever follows it. -/
theorem decode_encode {header : Header} (valid : header.validate overflow = .ok ())
    (rest : Bytes) : decode overflow (header.encode ++ rest) = .ok header := by
  have long : ¬(header.encode ++ rest).length < size := by
    rw [List.length_append, length_encode]; omega
  have magic : header.magic = expectedMagic := (validate_eq_ok_iff.1 valid).1
  have read : (readWords (header.encode ++ rest)).1 = .ok header := by
    rw [encode, List.append_assoc]
    exact readWords_words header _ magic
  rw [decode, if_neg long, read]
  simp [bind, Except.bind, valid, pure, Except.pure]

end Valid

end Header

namespace StepEntry

/-- An entry is read back and what follows it is left. -/
@[simp]
theorem readWords_encode (entry : StepEntry) (rest : Bytes) :
    readWords (entry.encode ++ rest) = (entry, rest) := by
  simp [readWords, encode, bind, StateT.bind]
  rfl

/-- An entry is read back, whatever follows it. -/
theorem decode_encode (entry : StepEntry) (rest : Bytes) :
    decode (entry.encode ++ rest) = .ok entry := by
  have long : ¬(entry.encode ++ rest).length < Header.entrySize := by
    rw [List.length_append, length_encode]
    omega
  rw [decode, if_neg long, readWords_encode]

end StepEntry

namespace StepTable

/-- The entries of a table are read back in their order, whatever follows the table. -/
theorem decode_flatMap_encode (entries : List StepEntry) (rest : Bytes) :
    decode entries.length (entries.flatMap StepEntry.encode ++ rest) = entries := by
  induction entries with
  | nil => rfl
  | cons entry entries ih =>
    rw [List.length_cons, List.flatMap_cons, List.append_assoc, decode,
      StepEntry.readWords_encode, ← StepEntry.length_encode entry, List.drop_left, ih]

end StepTable

namespace ChunkHeader

/-- A chunk header is read back, whatever follows it. -/
theorem decode_encode (header : ChunkHeader) (rest : Bytes) :
    decode (header.encode ++ rest) = .ok header := by
  have long : ¬(header.encode ++ rest).length < size := by
    rw [List.length_append, length_encode]; omega
  rw [decode, if_neg long]
  simp [readWords, encode, magic, bind, StateT.bind, Codec.ofTag?_tag]
  rfl

end ChunkHeader

end RaggedTrajectory
