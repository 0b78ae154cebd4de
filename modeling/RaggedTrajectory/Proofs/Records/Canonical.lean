import RaggedTrajectory.Proofs.Chunk.Canonical
import RaggedTrajectory.Proofs.Reader.Structure

/-!
# Table entries and chunk headers have one form

Both records are rows of little-endian words without gaps, the words of a chunk header not aligned
behind the byte of its codec. Reading undoes writing, whatever follows. Writing undoes reading but
for one word: a table entry has a word for a truth value, every number but zero is read as true, and
true is written as one.

* `StepEntry.encode_ofWords`: an entry that was read is written with its flag as zero or one.
* `StepEntry.decode_eq_ok_iff_encode`: which byte strings are read as an entry.
* `records_inverse`: reading and writing of both records.
-/

namespace RaggedTrajectory

open LittleEndian (wordAt)

namespace Bytes

/-- A patch inside a part from the start leaves what is in front of it and what is behind it. -/
theorem overwrite_slice {bytes : Bytes} (offset count : Nat)
    (inside : offset + count ≤ bytes.length) (patch : Bytes) :
    (bytes.slice 0 (offset + count)).overwrite offset patch =
      bytes.slice 0 offset ++ (patch ++
        bytes.slice (offset + patch.length) (count - patch.length)) := by
  have filled : offset - (bytes.slice 0 (offset + count)).length = 0 := by
    rw [length_slice]
    omega
  have behind : offset + count - (offset + patch.length) = count - patch.length := by omega
  rw [overwrite, filled, slice, List.drop_zero, List.take_take,
    Nat.min_eq_left (Nat.le_add_right _ _), List.drop_take, behind]
  simp [slice]

end Bytes

namespace StepEntry

/-! ## Table entries -/

/-- The words of an entry, put one behind the other, are the front of the byte string they stand in,
except that any number but zero in the place of the flag becomes one. -/
theorem encode_ofWords {bytes : Bytes} (long : Header.entrySize ≤ bytes.length) :
    (ofWords bytes).encode =
      if wordAt bytes 12 4 = 0 then bytes.slice 0 40
      else (bytes.slice 0 40).overwrite 12 [1, 0, 0, 0] := by
  have word (start width : Nat) (inside : start + width ≤ Header.entrySize) :
      LittleEndian.encode width (wordAt bytes start width) = bytes.slice start width :=
    LittleEndian.encode_wordAt (Nat.le_trans inside long)
  -- Signs are only another reading of the same bits.
  have count : (ofWords bytes).particleCount.toUInt32.toNat = wordAt bytes 8 4 := by
    show (UInt32.ofNat (wordAt bytes 8 4)).toInt32.toUInt32.toNat = _
    rw [UInt32.toUInt32_toInt32, LittleEndian.toNat_wordAt_four]
  have flag : LittleEndian.encode 4 (if (ofWords bytes).written then 1 else 0) =
      if wordAt bytes 12 4 = 0 then bytes.slice 12 4 else [1, 0, 0, 0] := by
    show LittleEndian.encode 4 (if decide (wordAt bytes 12 4 ≠ 0) then 1 else 0) = _
    by_cases zero : wordAt bytes 12 4 = 0
    · have same := word 12 4 (by decide)
      rw [zero] at same
      simp [zero, same]
    · simp [zero, LittleEndian.encode]
  -- The words in front of the flag, and those behind it.
  have front : bytes.slice 0 8 ++ bytes.slice 8 4 = bytes.slice 0 12 :=
    bytes.slice_append_slice 0 8 4
  have back : bytes.slice 16 8 ++ (bytes.slice 24 8 ++ bytes.slice 32 8) = bytes.slice 16 24 := by
    rw [bytes.slice_append_slice 24 8 8, bytes.slice_append_slice 16 8 16]
  calc (ofWords bytes).encode
    _ = bytes.slice 0 8 ++ (bytes.slice 8 4 ++
          ((if wordAt bytes 12 4 = 0 then bytes.slice 12 4 else [1, 0, 0, 0]) ++
            bytes.slice 16 24)) := by
      rw [encode, count, flag, ← back]
      simp only [ofWords, LittleEndian.toNat_wordAt_eight]
      rw [word 0 8 (by decide), word 8 4 (by decide), word 16 8 (by decide),
        word 24 8 (by decide), word 32 8 (by decide)]
    _ = _ := by
      rw [← List.append_assoc (bytes.slice 0 8), front]
      split
      · rw [bytes.slice_append_slice 12 4 24, bytes.slice_append_slice 0 12 28]
      · exact (Bytes.overwrite_slice 12 28 long [1, 0, 0, 0]).symm

theorem encode_injective {first second : StepEntry} (same : first.encode = second.encode) :
    first = second := by
  have back := decode_encode first []
  rw [same, decode_encode] at back
  exact (Except.ok.inj back).symm

/-- The entry that a byte string is read as is the one that is written as the front of it, with the
flag as zero or one. -/
theorem decode_eq_ok_iff_encode {bytes : Bytes} {entry : StepEntry} :
    decode bytes = .ok entry ↔
      40 ≤ bytes.length ∧ entry.encode =
        if wordAt bytes 12 4 = 0 then bytes.slice 0 40
        else (bytes.slice 0 40).overwrite 12 [1, 0, 0, 0] := by
  rw [decode_eq_ok_iff]
  constructor
  · rintro ⟨long, rfl⟩
    exact ⟨long, encode_ofWords long⟩
  · rintro ⟨long, same⟩
    rw [← encode_ofWords long] at same
    exact ⟨long, encode_injective same⟩

end StepEntry

/-! ## Chunk headers -/

namespace ChunkHeader

/-- The header that a byte string is read as is the one that is written as the front of it. -/
theorem decode_eq_ok_iff_encode {bytes : Bytes} {header : ChunkHeader} :
    decode bytes = .ok header ↔ header.encode = bytes.slice 0 45 := by
  constructor
  · exact encode_eq_of_decode
  · intro same
    have back := decode_encode header (bytes.drop 45)
    rwa [same, Bytes.slice, List.drop_zero, List.take_append_drop] at back

end ChunkHeader

/-! ## Both records -/

/-- Reading and writing of table entries and of chunk headers. An entry has 40 bytes and is read
back from them bit for bit, whatever follows. Every byte string of at least 40 bytes is read as an
entry, which is written as the front of the byte string, except that any number but zero in the
place of the flag becomes one. A chunk header has 45 bytes and is read back from them, whatever
follows, and what is read as a chunk header is the front of the byte string to the last bit. -/
theorem records_inverse :
    (∀ (entry : StepEntry) (rest : Bytes),
      entry.encode.length = 40 ∧ StepEntry.decode (entry.encode ++ rest) = .ok entry) ∧
    (∀ bytes : Bytes, (∃ entry, StepEntry.decode bytes = .ok entry) ↔ 40 ≤ bytes.length) ∧
    (∀ (bytes : Bytes) (entry : StepEntry), StepEntry.decode bytes = .ok entry ↔
      40 ≤ bytes.length ∧ entry.encode =
        if wordAt bytes 12 4 = 0 then bytes.slice 0 40
        else (bytes.slice 0 40).overwrite 12 [1, 0, 0, 0]) ∧
    (∀ (header : ChunkHeader) (rest : Bytes),
      header.encode.length = 45 ∧ ChunkHeader.decode (header.encode ++ rest) = .ok header) ∧
    ∀ (bytes : Bytes) (header : ChunkHeader),
      ChunkHeader.decode bytes = .ok header ↔ header.encode = bytes.slice 0 45 := by
  refine ⟨fun entry rest => ⟨entry.length_encode, entry.decode_encode rest⟩, fun bytes => ?_,
    fun bytes entry => StepEntry.decode_eq_ok_iff_encode,
    fun header rest => ⟨header.length_encode, header.decode_encode rest⟩,
    fun bytes header => ChunkHeader.decode_eq_ok_iff_encode⟩
  constructor
  · rintro ⟨entry, read⟩
    exact (StepEntry.decode_eq_ok_iff.1 read).1
  · intro long
    exact ⟨.ofWords bytes, StepEntry.decode_eq_ok_iff.2 ⟨long, rfl⟩⟩

/-- A count of `-2`, a time that is no number, and a flag that is neither zero nor one: the flag is
written as one, every other bit as it was read. -/
example :
    let bytes : Bytes := [1, 0, 0, 0, 0, 0, 0xF4, 0x7F, 0xFE, 0xFF, 0xFF, 0xFF, 0, 0, 2, 0] ++
      List.replicate 25 0x81
    (StepEntry.ofWords bytes).encode =
      [1, 0, 0, 0, 0, 0, 0xF4, 0x7F, 0xFE, 0xFF, 0xFF, 0xFF, 1, 0, 0, 0] ++
        List.replicate 24 0x81 := by
  decide +kernel

end RaggedTrajectory
