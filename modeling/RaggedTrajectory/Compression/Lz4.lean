import RaggedTrajectory.Compression.Window

/-!
# LZ4 blocks

A block is a row of sequences. Each starts with a token that holds two lengths of four bits; a
length of fifteen goes on in further bytes. Literals follow, then the offset of a copy. The last
sequence ends after its literals.

Reading is bounded by a capacity: a block that would put out more is refused, as is one that is cut
short or that copies from before the start. `compress` proposes a block found by hashing, and gives
a block of literals alone where the proposal would not be read back.

* `decode_compress`: what was compressed is read back.
-/

namespace RaggedTrajectory.Lz4

open Compression

/-- The shortest copy. -/
def minMatch : Nat := 4

/-- Adds the further bytes of a length, up to one that is not full. -/
def readExtension : (length : Nat) → Bytes → Option (Nat × Bytes)
  | _, [] => none
  | length, b :: rest =>
    if b = 255 then readExtension (length + 255) rest else some (length + b.toNat, rest)

/-- The length that starts with four bits of a token. -/
def readLength (nibble : Nat) (input : Bytes) : Option (Nat × Bytes) :=
  if nibble = 15 then readExtension 15 input else some (nibble, input)

/-- Reads sequences until the input ends after literals. -/
def decodeSequences (capacity : Nat) : (fuel : Nat) → Bytes → Array UInt8 → Option (Array UInt8)
  | 0, _, _ => none
  | _, [], _ => none
  | fuel + 1, token :: input, output =>
    match readLength (token.toNat / 16) input with
    | none => none
    | some (literalLength, input) =>
      match split? literalLength input with
      | none => none
      | some (literals, input) =>
        let output := pushAll output literals
        if capacity < output.size then none
        else
          match input with
          | [] => some output
          | [_] => none
          | low :: high :: input =>
            let offset := low.toNat + 256 * high.toNat
            match readLength (token.toNat % 16) input with
            | none => none
            | some (copyLength, input) =>
              let copyLength := copyLength + minMatch
              if offset = 0 ∨ output.size < offset ∨ capacity < output.size + copyLength then none
              else decodeSequences capacity fuel input (copyBack offset copyLength output)

/-- The data that a block stands for, of at most `capacity` bytes. Every sequence takes at least
one byte of the input. -/
def decode (capacity : Nat) (input : Bytes) : Option Bytes :=
  (decodeSequences capacity (input.length + 1) input #[]).map Array.toList

/-- Literals followed by a copy. -/
structure Sequence where
  literals : Bytes
  offset : Nat
  /-- The length of the copy, without the four bytes that every copy has. -/
  extra : Nat

/-- Four bits of a token. -/
def nibble (length : Nat) : Nat := min length 15

/-- The further bytes of a length of which `length` is left. -/
def writeExtension (length : Nat) : Bytes :=
  List.replicate (length / 255) 255 ++ [UInt8.ofNat (length % 255)]

/-- The further bytes of a length, if four bits do not hold it. -/
def writeLength (length : Nat) : Bytes := if length < 15 then [] else writeExtension (length - 15)

/-- The bytes of a sequence. -/
def Sequence.encode (s : Sequence) : Bytes :=
  UInt8.ofNat (16 * nibble s.literals.length + nibble s.extra) ::
    (writeLength s.literals.length ++ s.literals ++ LittleEndian.encode 2 s.offset ++
      writeLength s.extra)

/-- The bytes of the last sequence, which has literals only. -/
def encodeLiterals (literals : Bytes) : Bytes :=
  UInt8.ofNat (16 * nibble literals.length) :: (writeLength literals.length ++ literals)

/-- The table of recent places, by the hash of the bytes there. -/
structure Table where
  /-- Whether the input is long enough for hashes of five bytes. -/
  wide : Bool
  places : Array Nat

/-- The slot of the bytes at a place. -/
def Table.slot (table : Table) (input : Array UInt8) (place : Nat) : Nat :=
  let word (count : Nat) := LittleEndian.decode (between input place (place + count))
  if table.wide then (word 8 * 2 ^ 24 * 889523592379) % 2 ^ 64 / 2 ^ 48 / 16
  else word 4 * 2654435761 % 2 ^ 32 / 2 ^ 16 / 16

/-- The place that the table holds for the bytes at `place`. -/
def Table.find (table : Table) (input : Array UInt8) (place : Nat) : Nat :=
  table.places.getD (table.slot input place) 0

/-- Puts a place into the table. -/
def Table.put (table : Table) (input : Array UInt8) (place : Nat) : Table :=
  { table with places := table.places.setIfInBounds (table.slot input place) place }

/-- The farthest copy. -/
def maxDistance : Nat := 65535

/-- A place at which a copy can start, and the place it copies from. The steps between the places
that are tried grow with the number of failures. -/
def search (input : Array UInt8) (last : Nat) :
    (fuel misses place : Nat) → Table → Option (Nat × Nat) × Table
  | 0, _, _, table => (none, table)
  | fuel + 1, misses, place, table =>
    if last < place then (none, table)
    else
      let candidate := table.find input place
      let table := table.put input place
      if place - candidate ≤ maxDistance ∧
          between input candidate (candidate + 4) = between input place (place + 4) then
        (some (place, candidate), table)
      else search input last fuel (misses + 1) (place + misses / 32) table

/-- The sequences of an input from `start` on, where `place` is the next place to be tried, and the
place where the last literals start. The last five bytes are literals. -/
def sequences (input : Array UInt8) :
    (fuel start place : Nat) → Table → List Sequence → List Sequence × Nat
  | 0, start, _, _, found => (found.reverse, start)
  | fuel + 1, start, place, table, found =>
    match search input (input.size - 12) (input.size + 1) 32 place table with
    | (none, _) => (found.reverse, start)
    | (some (place, candidate), table) =>
      let back := commonBefore input place candidate (min (place - start) candidate)
      let place := place - back
      let candidate := candidate - back
      let extra := commonLength input (place + 4) (candidate + 4) (input.size - 6 - (place + 4))
      let stop := place + 4 + extra
      let table := table.put input (stop - 2)
      sequences input fuel stop stop table
        (⟨between input start place, place - candidate, extra⟩ :: found)

/-- A block for the input, found with a table of 4096 places. -/
def propose (data : Bytes) : Bytes :=
  let input := data.toArray
  if input.size < 13 then encodeLiterals data
  else
    let table : Table := ⟨65535 ≤ input.size, Array.replicate 4096 0⟩
    let (found, start) := sequences input input.size 0 1 (table.put input 0) []
    found.flatMap Sequence.encode ++ encodeLiterals (between input start input.size)

/-- A block that is read back as the data. -/
def compress (data : Bytes) : Bytes :=
  let block := propose data
  if decode data.length block = some data then block else encodeLiterals data

theorem readExtension_writeExtension (length base : Nat) (rest : Bytes) :
    readExtension base (writeExtension length ++ rest) = some (base + length, rest) := by
  have key : ∀ (count base : Nat), readExtension base
      (List.replicate count 255 ++ ([UInt8.ofNat (length % 255)] ++ rest)) =
        some (base + 255 * count + length % 255, rest) := by
    intro count
    induction count with
    | zero =>
      intro base
      have hlt : length % 255 < 255 := Nat.mod_lt _ (by omega)
      have hne : UInt8.ofNat (length % 255) ≠ 255 := by
        intro h
        have := congrArg UInt8.toNat h
        simp at this
        omega
      have hval : (UInt8.ofNat (length % 255)).toNat = length % 255 := by simp; omega
      simp only [List.replicate_zero, List.nil_append, List.cons_append, readExtension, hne,
        if_false, hval, Nat.mul_zero, Nat.add_zero]
    | succ count ih =>
      intro base
      rw [List.replicate_succ, List.cons_append, readExtension, if_pos rfl, ih]
      congr 2
      omega
  rw [writeExtension, List.append_assoc, key]
  congr 2
  omega

theorem readLength_writeLength (length : Nat) (rest : Bytes) :
    readLength (nibble length) (writeLength length ++ rest) = some (length, rest) := by
  by_cases h : length < 15
  · have hn : nibble length = length := by simp [nibble]; omega
    have hne : length ≠ 15 := by omega
    simp [readLength, writeLength, h, hn, hne]
  · have hn : nibble length = 15 := by simp [nibble]; omega
    rw [readLength, if_pos hn, writeLength, if_neg h, readExtension_writeExtension]
    congr 2
    omega

theorem decode_encodeLiterals (data : Bytes) :
    decode data.length (encodeLiterals data) = some data := by
  have hle : nibble data.length ≤ 15 := Nat.min_le_right _ _
  have htoken : (UInt8.ofNat (16 * nibble data.length)).toNat / 16 = nibble data.length := by
    simp; omega
  have hsplit := split?_append data []
  rw [List.append_nil] at hsplit
  have hsize : (pushAll #[] data).size = data.length := by
    rw [← Array.length_toList, toList_pushAll]; simp
  simp only [decode, encodeLiterals, List.length_cons, decodeSequences, htoken]
  rw [readLength_writeLength]
  simp [hsplit, hsize, toList_pushAll]

theorem decode_compress (data : Bytes) : decode data.length (compress data) = some data := by
  unfold compress
  by_cases h : decode data.length (propose data) = some data
  · simp [h]
  · simp [h, decode_encodeLiterals]

end RaggedTrajectory.Lz4
