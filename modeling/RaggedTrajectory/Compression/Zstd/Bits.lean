import RaggedTrajectory.Bytes

/-!
# Bit streams

Table descriptions are read from their first bit on. Entropy-coded data is read backwards, from
the bit below the highest bit set in the last byte.
-/

namespace RaggedTrajectory.Zstd

/-- The bits of a word, counted from the lowest. -/
def bitsAt (word start count : Nat) : Nat := word / 2 ^ start % 2 ^ count

/-- A stream that is read backwards: its bytes and the number of bits that are left. -/
structure BackwardBits where
  bytes : Array UInt8
  left : Nat

namespace BackwardBits

/-- A stream from its bytes. The last byte holds the mark of the end above its highest bit. -/
def ofBytes? (bytes : Bytes) : Option BackwardBits :=
  match bytes.getLast? with
  | none => none
  | some last =>
    if last = 0 then none
    else some ⟨bytes.toArray, 8 * (bytes.length - 1) + last.toNat.log2⟩

/-- `count` bits from the place `start` on, lowest first. -/
def window (stream : BackwardBits) (start count : Nat) : Nat :=
  let first := start / 8
  let stop := (start + count + 7) / 8
  bitsAt (LittleEndian.decode (stream.bytes.extract first stop).toList) (start % 8) count

/-- The next bits, if as many are left. -/
def read? (stream : BackwardBits) (count : Nat) : Option (Nat × BackwardBits) :=
  if count ≤ stream.left then
    some (stream.window (stream.left - count) count, { stream with left := stream.left - count })
  else none

/-- The next bits without taking them; where none are left there are zeros. -/
def peek (stream : BackwardBits) (count : Nat) : Nat :=
  if count ≤ stream.left then stream.window (stream.left - count) count
  else stream.window 0 stream.left * 2 ^ (count - stream.left)

end BackwardBits

/-- A stream that is read forwards, and the place of its next bit. Past the end there are zeros. -/
structure ForwardBits where
  bytes : Array UInt8
  position : Nat

namespace ForwardBits

/-- The next bits without taking them. -/
def peek (stream : ForwardBits) (count : Nat) : Nat :=
  let first := stream.position / 8
  let stop := (stream.position + count + 7) / 8
  bitsAt (LittleEndian.decode (stream.bytes.extract first stop).toList) (stream.position % 8) count

/-- Leaves bits behind. -/
def skip (stream : ForwardBits) (count : Nat) : ForwardBits :=
  { stream with position := stream.position + count }

/-- The bytes of which some bit was taken. -/
def bytesUsed (stream : ForwardBits) : Nat := (stream.position + 7) / 8

end ForwardBits

end RaggedTrajectory.Zstd
