import RaggedTrajectory.Proofs.Checksum.SingleByte
import RaggedTrajectory.Proofs.Chunk.WellFormed

/-!
# Chunks with one changed byte

Two byte strings that are both chunks, agree on the step and on its records, and differ in one byte
alone, differ in the tag of the codec, or in the length of a payload that is compressed. Every other
byte is compared with something: the letters at the start are fixed, the length of the raw payload
follows from the number of particles, a payload that is stored as it is has that length too, and the
checksum tells apart payloads that differ in one byte.

* `Chunk.IsUnguarded`: the places where a change can go unnoticed.
* `Chunk.isUnguarded_of_isWellFormed`: a change that goes unnoticed is in one of them.
* `Chunk.failsOnly_decode`: what is not a chunk is reported as damaged.
-/

namespace RaggedTrajectory

open LittleEndian (wordAt)

namespace Bytes

variable (bytes : Bytes) {place start count : Nat} (value : UInt8)

/-- Another byte before a part or behind it leaves the part as it is. -/
theorem slice_set_of_outside (outside : place < start ∨ start + count ≤ place) :
    slice (bytes.set place value) start count = bytes.slice start count := by
  unfold slice
  rw [List.drop_set]
  split
  · rfl
  · have behind : ((bytes.drop start).take count).length ≤ place - start := by
      rw [List.length_take]
      omega
    rw [List.take_set, List.set_eq_of_length_le behind]

/-- Another byte in a part is in the same place of the part. -/
theorem slice_set_of_inside (after : start ≤ place) :
    slice (bytes.set place value) start count =
      (bytes.slice start count).set (place - start) value := by
  unfold slice
  rw [List.drop_set, if_neg (Nat.not_lt.2 after), List.take_set]

end Bytes

namespace LittleEndian

variable {bytes : Bytes} {place start width : Nat} {value : UInt8}

/-- Words of one width are those of the same bytes. -/
theorem decode_inj {first second : Bytes} (length : first.length = second.length)
    (same : decode first = decode second) : first = second := by
  rw [← encode_decode first, ← encode_decode second, length, same]

theorem wordAt_set_of_outside (bytes : Bytes) (value : UInt8)
    (outside : place < start ∨ start + width ≤ place) :
    wordAt (bytes.set place value) start width = wordAt bytes start width :=
  congrArg decode (Bytes.slice_set_of_outside bytes value outside)

/-- Another byte in a word makes another word. -/
theorem wordAt_set_ne (inside : place < bytes.length) (changed : bytes[place]? ≠ some value)
    (within : start ≤ place ∧ place < start + width) :
    wordAt (bytes.set place value) start width ≠ wordAt bytes start width := by
  intro same
  have length : (Bytes.slice (bytes.set place value) start width).length =
      (bytes.slice start width).length := by
    rw [Bytes.slice_set_of_inside bytes value within.1, List.length_set]
  have part := decode_inj length same
  -- The part is as it was, so the byte was not changed at all.
  have own := congrArg (fun part => part[place - start]?) part
  have short : place - start < width := by omega
  have back : start + (place - start) = place := by omega
  simp only [Bytes.slice, List.getElem?_take_of_lt short, List.getElem?_drop, back,
    List.getElem?_set_self inside] at own
  exact changed own.symm

end LittleEndian

/-! ## Failures -/

namespace Error

/-- An operation whose every failure is of one kind. -/
def FailsOnly {α : Type} (kind : Error → Prop) (operation : Except Error α) : Prop :=
  ∀ e, operation = .error e → kind e

section FailsOnly

variable {α β : Type} {kind : Error → Prop}

theorem failsOnly_ok (value : α) : FailsOnly kind (.ok value) := fun _ failed => by cases failed

theorem failsOnly_throw {e : Error} (own : kind e) :
    FailsOnly kind (.error e : Except Error α) := by
  intro other failed
  cases failed
  exact own

/-- An operation in two parts fails where one of its parts does. -/
theorem failsOnly_bind {operation : Except Error α} {next : α → Except Error β}
    (first : FailsOnly kind operation) (second : ∀ value, FailsOnly kind (next value)) :
    FailsOnly kind (operation >>= next) := by
  cases operation with
  | ok value => exact second value
  | error e => exact failsOnly_throw (first e rfl)

/-- An operation behind a check fails where the check does, or later. -/
theorem failsOnly_guard {refused : Prop} [Decidable refused] {e : Error}
    {next : α → Except Error β} {rest : Except Error β} (own : kind e)
    (others : FailsOnly kind rest) :
    FailsOnly kind (if refused then throw e >>= next else rest) := by
  split
  · exact failsOnly_throw own
  · exact others

end FailsOnly

/-- Whether a failure says that the bytes of a file are not what was written. -/
def IsDamage : Error → Prop
  | corrupt _ | checksumMismatch _ => True
  | _ => False

end Error

open Error (FailsOnly IsDamage)

theorem ChunkHeader.failsOnly_decode (bytes : Bytes) : FailsOnly IsDamage (decode bytes) := by
  rw [decode, readWords_eq]
  split
  · exact Error.failsOnly_throw trivial
  · split
    · exact Error.failsOnly_throw trivial
    · split
      · exact Error.failsOnly_throw trivial
      · exact Error.failsOnly_ok _

theorem FieldData.failsOnly_decode (dtype : DataType) (bytes : Bytes) :
    FailsOnly IsDamage (decode dtype bytes) := by
  unfold decode
  split
  · exact Error.failsOnly_ok _
  · exact Error.failsOnly_throw trivial

theorem Codec.failsOnly_decompress (bytes : Bytes) (codec : Codec) (length : Nat) :
    FailsOnly IsDamage (codec.decompress bytes length) := by
  have sized : ∀ data : Bytes, FailsOnly IsDamage (do
      if data.length ≠ length then throw (.corrupt (.decompressedLength data.length length))
      return data : Except Error Bytes) := fun data =>
    Error.failsOnly_guard trivial (Error.failsOnly_ok _)
  unfold decompress
  cases codec with
  | stored => exact sized bytes
  | lz4 =>
    dsimp only
    split
    · exact sized _
    · exact Error.failsOnly_throw trivial
  | zstd =>
    dsimp only
    split
    · exact sized _
    · exact Error.failsOnly_throw trivial

namespace Chunk

theorem failsOnly_columns (count : Nat) (fields : List Field) (raw : Bytes) :
    FailsOnly IsDamage (columns count fields raw) := by
  induction fields generalizing raw with
  | nil => exact Error.failsOnly_ok _
  | cons field fields ih =>
    refine Error.failsOnly_bind (FieldData.failsOnly_decode _ _) fun data => ?_
    exact Error.failsOnly_bind (ih _) fun others => Error.failsOnly_ok _

/-- What is not a chunk is reported as damaged. -/
theorem failsOnly_decode (manifest : Manifest) (bytes : Bytes) :
    FailsOnly IsDamage (decode manifest bytes) := by
  refine Error.failsOnly_bind (ChunkHeader.failsOnly_decode bytes) fun header => ?_
  refine Error.failsOnly_guard trivial ?_
  refine Error.failsOnly_guard trivial ?_
  refine Error.failsOnly_guard trivial ?_
  refine Error.failsOnly_bind (Codec.failsOnly_decompress _ _ _) fun raw => ?_
  exact Error.failsOnly_bind (failsOnly_columns _ _ _) fun fields => Error.failsOnly_ok _

/-! ## Changes that go unnoticed -/

/-- The places of a chunk that nothing is compared with: the tag of the codec and, unless the
payload is stored as it is, the length of the payload. -/
def IsUnguarded (chunk : Bytes) (place : Nat) : Prop :=
  place = 24 ∨ 33 ≤ place ∧ place < 41 ∧ ChunkHeader.codecIn? chunk ≠ some .stored

instance (chunk : Bytes) (place : Nat) : Decidable (IsUnguarded chunk place) :=
  inferInstanceAs (Decidable (_ ∨ _ ∧ _ ∧ _))

/-- A payload that is stored as it is has the length of the raw payload. -/
theorem IsWellFormed.storedLength_eq {manifest : Manifest} {bytes : Bytes}
    (wellFormed : IsWellFormed manifest bytes)
    (codec : ChunkHeader.codecIn? bytes = some .stored) :
    wordAt bytes 33 8 = wordAt bytes 25 8 := by
  obtain ⟨own, raw, tag, back, long⟩ := wellFormed.content
  have whole := wellFormed.whole
  cases tag.symm.trans codec
  have same : raw = storedIn bytes := by
    simp only [Codec.decompress, Error.bind_eq_ok_iff, Error.guard_eq_ok_iff] at back
    obtain ⟨data, plain, -, kept⟩ := back
    cases plain
    cases kept
    rfl
  rw [← long, same, storedIn, Bytes.length_slice]
  omega

section Changed

variable {manifest : Manifest} {chunk : Bytes} {place : Nat} {value : UInt8}

/-- Another byte in a payload that nothing follows makes another checksum. -/
theorem checksum_storedIn_set_ne (whole : chunk.length = ChunkHeader.size + wordAt chunk 33 8)
    (inside : place < chunk.length) (changed : chunk[place]? ≠ some value)
    (behind : ChunkHeader.size ≤ place) :
    Crc32.checksum (storedIn (chunk.set place value)) ≠ Crc32.checksum (storedIn chunk) := by
  have size : ChunkHeader.size = 45 := rfl
  have stored : storedIn (chunk.set place value) =
      (storedIn chunk).set (place - ChunkHeader.size) value := by
    rw [storedIn, LittleEndian.wordAt_set_of_outside chunk value (by omega),
      Bytes.slice_set_of_inside chunk value behind]
    rfl
  have within : place - ChunkHeader.size < (storedIn chunk).length := by
    rw [storedIn, Bytes.length_slice]
    omega
  have other : (storedIn chunk)[place - ChunkHeader.size] ≠ value := by
    intro same
    apply changed
    have back : ChunkHeader.size + (place - ChunkHeader.size) = place := by omega
    rw [← same, ← List.getElem?_eq_getElem within, storedIn, Bytes.slice,
      List.getElem?_take_of_lt (by omega), List.getElem?_drop, back]
  rw [stored]
  exact Crc32.checksum_set_ne within other

/-- A change that goes unnoticed, of a chunk that nothing follows, is in one of the places that
nothing is compared with. -/
theorem isUnguarded_of_isWellFormed (intact : IsWellFormed manifest chunk)
    (accepted : IsWellFormed manifest (chunk.set place value))
    (whole : chunk.length = ChunkHeader.size + wordAt chunk 33 8)
    (inside : place < chunk.length) (changed : chunk[place]? ≠ some value)
    (step : wordAt (chunk.set place value) 4 4 = wordAt chunk 4 4)
    (recordStart : wordAt (chunk.set place value) 8 8 = wordAt chunk 8 8)
    (count : wordAt (chunk.set place value) 16 8 = wordAt chunk 16 8) :
    IsUnguarded chunk place := by
  have apart : ∀ start width, start ≤ place ∧ place < start + width →
      wordAt (chunk.set place value) start width ≠ wordAt chunk start width :=
    fun start width => LittleEndian.wordAt_set_ne inside changed
  have kept : ∀ start width, place < start ∨ start + width ≤ place →
      wordAt (chunk.set place value) start width = wordAt chunk start width :=
    fun start width => LittleEndian.wordAt_set_of_outside chunk value
  have rawLength : wordAt (chunk.set place value) 25 8 = wordAt chunk 25 8 := by
    rw [← accepted.sized, count, intact.sized]
  have size : ChunkHeader.size = 45 := rfl
  -- The words of the header follow each other, so the place is in one of them or behind them.
  refine Classical.byContradiction fun guarded => ?_
  have codec : place ≠ 24 := fun same => guarded (.inl same)
  by_cases storedLength : 33 ≤ place ∧ place < 41
  · have plain : ChunkHeader.codecIn? chunk = some .stored := Decidable.byContradiction fun other =>
      guarded (.inr ⟨storedLength.1, storedLength.2, other⟩)
    have still : ChunkHeader.codecIn? (chunk.set place value) = some .stored := by
      rw [ChunkHeader.codecIn?, kept 24 1 (by omega)]
      exact plain
    refine apart 33 8 (by omega) ?_
    rw [accepted.storedLength_eq still, rawLength, intact.storedLength_eq plain]
  · have length := kept 33 8 (by omega)
    rcases Nat.lt_or_ge place 45 with before | behind
    · -- Behind the length there is the checksum, of a payload that is as it was.
      have stored : storedIn (chunk.set place value) = storedIn chunk := by
        rw [storedIn, length, Bytes.slice_set_of_outside chunk value (by omega)]
        rfl
      have checksum : wordAt (chunk.set place value) 41 4 = wordAt chunk 41 4 := by
        rw [← accepted.intact, ← intact.intact, stored]
      have magic : wordAt (chunk.set place value) 0 4 = wordAt chunk 0 4 := by
        rw [wordAt, accepted.magic, wordAt, intact.magic]
      have letters := apart 0 4
      have first := apart 4 4
      have second := apart 8 8
      have third := apart 16 8
      have fourth := apart 25 8
      have last := apart 41 4
      omega
    · -- Behind the header there is the payload, whose checksum is as it was.
      refine checksum_storedIn_set_ne whole inside changed behind ?_
      rw [← UInt32.toNat_inj, accepted.intact, intact.intact, kept 41 4 (by omega)]

end Changed

end Chunk

end RaggedTrajectory
