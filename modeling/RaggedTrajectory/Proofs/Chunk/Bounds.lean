import RaggedTrajectory.Proofs.Chunk.WellFormed

/-!
# Reading a chunk with machine words

A machine that reads a chunk computes with words of 64 bits and cuts its parts out of byte strings
of a given length. It would stop if a sum or a product were no word, or if a part were not inside
its byte string. `Chunk.decodeChecked` reads a chunk step by step on such a machine: every sum,
every product and every part is checked. None of the checks fails, whatever the bytes are: the
result is that of `Chunk.decode`.

The offset of a column is the invariant of the last loop: it is never past the end of the raw
payload, because the strides of the fields that are left still fit behind it.

* `Chunk.columnsChecked_eq`: no column is outside the raw payload.
* `Chunk.decode_eq_ok_iff_isWellFormed`: what is accepted, what is made of it, and that no check
  fails.
-/

namespace RaggedTrajectory

open LittleEndian (wordAt)

/-- An operation of a machine. It stops, or it fails or gives a result. -/
abbrev Checked (α : Type) := ExceptT Error Option α

namespace Checked

variable {α β : Type}

/-- The machine stops. -/
def stop : Checked α := ExceptT.mk none

/-- The machine does not stop. -/
def lift (outcome : Except Error α) : Checked α := ExceptT.mk (some outcome)

/-- What must hold. -/
def require (condition : Prop) [Decidable condition] : Checked Unit :=
  if condition then return else stop

/-- A number that must be a word. -/
def word (n : Nat) : Checked Nat := do
  require (n < 2 ^ 64)
  return n

/-- The bytes from one place to another, which must be inside. -/
def part (bytes : Bytes) (start ending : Nat) : Checked Bytes := do
  require (start ≤ ending ∧ ending ≤ bytes.length)
  return bytes.slice start (ending - start)

/-- A word of so many bytes at a place. -/
def wordIn (bytes : Bytes) (start width : Nat) : Checked Nat := do
  let ending ← word (start + width)
  return LittleEndian.decode (← part bytes start ending)

@[simp]
theorem lift_ok (value : α) : lift (.ok value) = pure value := rfl

@[simp]
theorem lift_throw (e : Error) : (lift (throw e) : Checked α) = throw e := rfl

@[simp]
theorem throw_bind (e : Error) (next : α → Checked β) :
    (throw e : Checked α) >>= next = throw e := rfl

theorem require_of {condition : Prop} [Decidable condition] (holds : condition) :
    require condition = pure () := if_pos holds

theorem word_of_lt {n : Nat} (small : n < 2 ^ 64) : word n = pure n := by
  rw [word, require_of small, pure_bind]

theorem part_of_le {bytes : Bytes} {start ending : Nat} (ordered : start ≤ ending)
    (inside : ending ≤ bytes.length) :
    part bytes start ending = pure (bytes.slice start (ending - start)) := by
  rw [part, require_of ⟨ordered, inside⟩, pure_bind]

theorem wordIn_of_le {bytes : Bytes} {start width : Nat} (short : bytes.length < 2 ^ 64)
    (inside : start + width ≤ bytes.length) :
    wordIn bytes start width = pure (wordAt bytes start width) := by
  rw [wordIn, word_of_lt (Nat.lt_of_le_of_lt inside short), pure_bind,
    part_of_le (Nat.le_add_right _ _) inside, pure_bind, Nat.add_sub_cancel_left]
  rfl

end Checked

open Checked (lift word part wordIn require)

/-! ## The header -/

namespace ChunkHeader

/-- Reads the header at the start of a byte string, with every step checked. -/
def decodeChecked (bytes : Bytes) : Checked ChunkHeader := do
  if bytes.length < size then throw (.corrupt .truncatedChunkHeader)
  if (← part bytes 0 4) ≠ magic then throw (.corrupt .badChunkMagic)
  let tag ← wordIn bytes 24 1
  match Codec.ofTag? (UInt8.ofNat tag) with
  | none => throw (.corrupt (.unknownCodecTag tag))
  | some codec =>
    return {
      step := UInt32.ofNat (← wordIn bytes 4 4)
      recordStart := UInt64.ofNat (← wordIn bytes 8 8)
      count := UInt64.ofNat (← wordIn bytes 16 8)
      codec
      rawLength := UInt64.ofNat (← wordIn bytes 25 8)
      storedLength := UInt64.ofNat (← wordIn bytes 33 8)
      checksum := UInt32.ofNat (← wordIn bytes 41 4) }

/-- All words of a header are inside the bytes it has. -/
theorem decodeChecked_eq {bytes : Bytes} (short : bytes.length < 2 ^ 64) :
    decodeChecked bytes = lift (decode bytes) := by
  have letters : bytes.take 4 = bytes.slice 0 4 := rfl
  unfold decodeChecked
  rw [decode, readWords_eq, letters]
  split
  · rfl
  · next long =>
      -- From here on every word is one of the first 45 bytes.
      replace long : 45 ≤ bytes.length := Nat.not_lt.1 long
      have inside : ∀ start width, start + width ≤ 45 →
          wordIn bytes start width = pure (wordAt bytes start width) :=
        fun start width bound => Checked.wordIn_of_le short (Nat.le_trans bound long)
      rw [Checked.part_of_le (Nat.zero_le 4) (Nat.le_trans (by decide) long)]
      simp only [pure_bind, inside _ _ (show 4 + 4 ≤ 45 by decide),
        inside _ _ (show 8 + 8 ≤ 45 by decide), inside _ _ (show 16 + 8 ≤ 45 by decide),
        inside _ _ (show 24 + 1 ≤ 45 by decide), inside _ _ (show 25 + 8 ≤ 45 by decide),
        inside _ _ (show 33 + 8 ≤ 45 by decide), inside _ _ (show 41 + 4 ≤ 45 by decide)]
      split
      · rfl
      · unfold codecIn?
        cases Codec.ofTag? (UInt8.ofNat (wordAt bytes 24 1)) <;> rfl

end ChunkHeader

/-! ## The stride and the columns -/

/-- Adds up the strides of fields, with every step checked. -/
def Manifest.strideChecked (manifest : Manifest) : Checked Nat :=
  manifest.fields.foldlM
    (fun total field => do word (total + (← word (field.dtype.size * field.width)))) 0

/-- A particle has at most three values of eight bytes in a field. -/
theorem Manifest.stride_le (manifest : Manifest) : manifest.stride ≤ 24 * manifest.length := by
  have field_le : ∀ field : Field, field.stride ≤ 24 := by
    intro field
    rw [Field.stride, Field.width]
    cases field.dtype <;> cases field.shape <;> decide
  obtain ⟨fields⟩ := manifest
  show sumOf (fields.map Field.stride) ≤ 24 * fields.length
  induction fields with
  | nil => exact Nat.le_refl 0
  | cons field fields ih =>
    have own := field_le field
    rw [List.map_cons, sumOf_cons, List.length_cons]
    omega

/-- If a stride is a word, so is each of its parts. -/
theorem Manifest.strideChecked_eq {manifest : Manifest} (small : manifest.stride < 2 ^ 64) :
    manifest.strideChecked = pure manifest.stride := by
  have summed : ∀ (fields : List Field) (total : Nat),
      total + sumOf (fields.map Field.stride) < 2 ^ 64 →
      fields.foldlM (fun total field => do
        word (total + (← word (field.dtype.size * field.width)))) total =
          (pure (total + sumOf (fields.map Field.stride)) : Checked Nat) := by
    intro fields
    induction fields with
    | nil => intro total bound; rfl
    | cons field fields ih =>
      intro total bound
      rw [List.map_cons, sumOf_cons, ← Nat.add_assoc] at bound ⊢
      have own : Checked.word (field.dtype.size * field.width) = pure field.stride :=
        Checked.word_of_lt (show field.stride < 2 ^ 64 by omega)
      rw [List.foldlM_cons, own, pure_bind, Checked.word_of_lt (by omega), pure_bind]
      exact ih (total + field.stride) bound
  have all := summed manifest.fields 0 (by rw [Nat.zero_add]; exact small)
  rw [Nat.zero_add] at all
  exact all

namespace Chunk

/-- Cuts the columns of fields out of a raw payload from an offset on, with every step checked. -/
def columnsChecked (count : Nat) (raw : Bytes) : (offset : Nat) → List Field →
    Checked (List FieldData)
  | _, [] => return []
  | offset, field :: rest => do
    let values ← word (count * field.width)
    let length ← word (values * field.dtype.size)
    let ending ← word (offset + length)
    let data ← lift (FieldData.decode field.dtype (← part raw offset ending))
    let others ← columnsChecked count raw ending rest
    return data :: others

/-- As long as the columns that are left fit behind the offset, none of them is outside. -/
theorem columnsChecked_eq {count : Nat} {raw : Bytes} (short : raw.length < 2 ^ 64)
    {offset : Nat} {fields : List Field}
    (fits : offset + count * sumOf (fields.map Field.stride) ≤ raw.length) :
    columnsChecked count raw offset fields = lift (columns count fields (raw.drop offset)) := by
  induction fields generalizing offset with
  | nil => rfl
  | cons field fields ih =>
    rw [List.map_cons, sumOf_cons, Nat.mul_add, ← Nat.add_assoc] at fits
    have bytes : count * field.width * field.dtype.size = count * field.stride := by
      rw [Field.stride, Nat.mul_assoc, Nat.mul_comm field.width]
    -- The number of values is no more than the bytes they take, so it is a word too.
    have values : count * field.width ≤ count * field.width * field.dtype.size :=
      Nat.le_mul_of_pos_right _ field.dtype.size_pos
    rw [columnsChecked, Checked.word_of_lt (by omega), pure_bind, Checked.word_of_lt (by omega),
      pure_bind, Checked.word_of_lt (by omega), pure_bind,
      Checked.part_of_le (by omega) (by omega), pure_bind, Nat.add_sub_cancel_left,
      ih (by omega), columns, ← List.drop_drop]
    have own : (raw.drop offset).take (count * field.width * field.dtype.size) =
      raw.slice offset (count * field.width * field.dtype.size) := rfl
    rw [own]
    cases FieldData.decode field.dtype
      (raw.slice offset (count * field.width * field.dtype.size)) with
    | error e => rfl
    | ok data =>
      cases columns count fields
        ((raw.drop offset).drop (count * field.width * field.dtype.size)) <;> rfl

/-! ## The chunk -/

/-- Reads a chunk with every step checked. Its end and the length of its raw payload may turn out
not to be words; that is a fault of the chunk. The raw payload has the length that was asked for. -/
def decodeChecked (manifest : Manifest) (bytes : Bytes) :
    Checked (ChunkHeader × List FieldData) := do
  let header ← ChunkHeader.decodeChecked bytes
  let step := header.step.toNat
  let count := header.count.toNat
  let ending := ChunkHeader.size + header.storedLength.toNat
  if ¬(ending < 2 ^ 64 ∧ ending ≤ bytes.length) then throw (.corrupt (.truncatedChunk step))
  let stride ← manifest.strideChecked
  let expected := count * stride
  if ¬(expected < 2 ^ 64 ∧ header.rawLength.toNat = expected) then
    throw (.corrupt (.rawLength step header.rawLength.toNat count))
  let stored ← part bytes ChunkHeader.size ending
  if Crc32.checksum stored ≠ header.checksum then throw (.checksumMismatch step)
  let raw ← lift (Codec.decompress stored header.codec expected)
  require (raw.length = expected)
  let fields ← columnsChecked count raw 0 manifest.fields
  return (header, fields)

/-- No step fails, if the lengths of the byte string and of a particle are words. -/
theorem decodeChecked_eq {manifest : Manifest} {bytes : Bytes} (short : bytes.length < 2 ^ 64)
    (small : manifest.stride < 2 ^ 64) :
    decodeChecked manifest bytes = lift (decode manifest bytes) := by
  unfold decodeChecked decode
  rw [ChunkHeader.decodeChecked_eq short, Manifest.strideChecked_eq small]
  cases ChunkHeader.decode bytes with
  | error e => rfl
  | ok header =>
    have rawWord := header.rawLength.toNat_lt
    -- A sum or a product that is no word is not what it is compared with.
    have ending : ¬(ChunkHeader.size + header.storedLength.toNat < 2 ^ 64 ∧
        ChunkHeader.size + header.storedLength.toNat ≤ bytes.length) ↔
        bytes.length < ChunkHeader.size + header.storedLength.toNat := by omega
    have expected : ¬(header.count.toNat * manifest.stride < 2 ^ 64 ∧
        header.rawLength.toNat = header.count.toNat * manifest.stride) ↔
        header.rawLength.toNat ≠ header.count.toNat * manifest.stride := by omega
    simp only [Checked.lift_ok, pure_bind, Error.ok_bind, ending, expected]
    by_cases whole : bytes.length < ChunkHeader.size + header.storedLength.toNat
    · simp only [if_pos whole, Error.throw_bind, Checked.lift_throw, Checked.throw_bind]
    by_cases sized : header.rawLength.toNat ≠ header.count.toNat * manifest.stride
    · simp only [if_neg whole, if_pos sized, Error.throw_bind, Checked.lift_throw,
        Checked.throw_bind]
    simp only [if_neg whole, if_neg sized]
    rw [Checked.part_of_le (Nat.le_add_right _ _) (Nat.not_lt.1 whole), pure_bind,
      Nat.add_sub_cancel_left]
    have stored : (bytes.drop ChunkHeader.size).take header.storedLength.toNat =
      bytes.slice ChunkHeader.size header.storedLength.toNat := rfl
    rw [stored]
    generalize bytes.slice ChunkHeader.size header.storedLength.toNat = stored
    by_cases intact : Crc32.checksum stored ≠ header.checksum
    · simp only [if_pos intact, Error.throw_bind, Checked.lift_throw, Checked.throw_bind]
    simp only [if_neg intact]
    cases back : Codec.decompress stored header.codec (header.count.toNat * manifest.stride) with
    | error e => rfl
    | ok raw =>
      -- The columns are cut out of a payload that has just the length of all of them.
      have long := Codec.length_of_decompress back
      rw [Decidable.not_not] at sized
      rw [Checked.lift_ok, pure_bind, Checked.require_of long, pure_bind,
        columnsChecked_eq (by omega) (by rw [Nat.zero_add]; exact Nat.le_of_eq long.symm),
        List.drop_zero, Error.ok_bind]
      cases columns header.count.toNat manifest.fields raw <;> rfl

/-- A byte string is accepted exactly if it is well-formed. Then the columns are cut out of the
whole raw payload, and every field has a value of its type for each place. Whatever byte string and
manifest a machine of 64 bits holds, no sum or product overflows and no part is out of bounds. -/
theorem decode_eq_ok_iff_isWellFormed (manifest : Manifest) (bytes : Bytes) :
    ((∃ header fields, decode manifest bytes = .ok (header, fields)) ↔
      IsWellFormed manifest bytes) ∧
    (∀ header fields, decode manifest bytes = .ok (header, fields) →
      ∃ raw, header.codec.decompress (storedIn bytes) header.rawLength.toNat = .ok raw ∧
        raw.length = header.rawLength.toNat ∧
        IsCutInto header.count.toNat manifest.fields raw fields) ∧
    (bytes.length < 2 ^ 64 → manifest.length < 2 ^ 59 →
      (decodeChecked manifest bytes).run = some (decode manifest bytes)) := by
  refine ⟨⟨?_, exists_decode_of_isWellFormed⟩, fun header fields => isCutInto_of_decode,
    fun short few => ?_⟩
  · rintro ⟨header, fields, decoded⟩
    exact isWellFormed_of_decode decoded
  · have stride := manifest.stride_le
    exact decodeChecked_eq short (by omega)

/-- Two particles with one byte each, and what is left if the last byte of the payload is cut
off. -/
theorem decode_eq_ok_iff_isWellFormed_pair :
    let manifest : Manifest := ⟨[Field.standard "flag" .int8 []]⟩
    let header : ChunkHeader := ⟨3, 5, 2, .stored, 2, 2, Crc32.checksum [1, 4]⟩
    let bytes := header.encode ++ [1, 4, 9]
    IsWellFormed manifest bytes ∧
      (decodeChecked manifest bytes).run = some (.ok (header, [⟨.int8, #[1, 4]⟩])) ∧
      ¬∃ header fields, decode manifest (bytes.take 46) = .ok (header, fields) := by
  intro manifest header bytes
  have stored : bytes.slice ChunkHeader.size 2 = [1, 4] := by
    rw [Bytes.slice_append_right _ _ _ (Nat.le_of_eq (ChunkHeader.length_encode header)),
      ChunkHeader.length_encode]
    rfl
  have cut : columns 2 manifest.fields [1, 4] = .ok [⟨.int8, #[1, 4]⟩] := by rfl
  have accepted : decode manifest bytes = .ok (header, [⟨.int8, #[1, 4]⟩]) :=
    decode_eq_ok_iff.2 ⟨ChunkHeader.decode_encode header _,
      by rw [List.length_append, ChunkHeader.length_encode]; decide, rfl,
      congrArg Crc32.checksum stored, [1, 4], congrArg Except.ok stored, cut⟩
  obtain ⟨iff, -, checked⟩ := decode_eq_ok_iff_isWellFormed manifest bytes
  refine ⟨iff.1 ⟨_, _, accepted⟩, ?_, fun again => ?_⟩
  · rw [checked (by rw [List.length_append, ChunkHeader.length_encode]; decide) (by decide),
      accepted]
  · have whole := ((decode_eq_ok_iff_isWellFormed manifest (bytes.take 46)).1.1 again).whole
    revert whole
    decide +kernel

end Chunk

end RaggedTrajectory
