import RaggedTrajectory.Bytes

/-!
# XXH64

The 64-bit hash whose low word closes a Zstandard frame. Stripes of 32 bytes feed four lanes; the
tail goes in by words of eight bytes, one of four, and single bytes.
-/

namespace RaggedTrajectory.XxHash64

def prime1 : UInt64 := 0x9E3779B185EBCA87
def prime2 : UInt64 := 0xC2B2AE3D27D4EB4F
def prime3 : UInt64 := 0x165667B19E3779F9
def prime4 : UInt64 := 0x85EBCA77C2B2AE63
def prime5 : UInt64 := 0x27D4EB2F165667C5

/-- Rotation to the left by `count` bits, `0 < count < 64`. -/
def rotate (word : UInt64) (count : UInt64) : UInt64 :=
  (word <<< count) ||| (word >>> (64 - count))

/-- Takes one word into a lane. -/
def round (lane input : UInt64) : UInt64 :=
  rotate (lane + input * prime2) 31 * prime1

/-- Folds a finished lane into the hash. -/
def merge (hash lane : UInt64) : UInt64 :=
  (hash ^^^ round 0 lane) * prime1 + prime4

/-- The little-endian 64-bit word at an offset. -/
def word (bytes : Bytes) (start : Nat) : UInt64 :=
  UInt64.ofNat (LittleEndian.wordAt bytes start 8)

/-- The four lanes after the given number of stripes, and the bytes that are left. -/
def lanes (v1 v2 v3 v4 : UInt64) (bytes : Bytes) :
    (stripes : Nat) → UInt64 × UInt64 × UInt64 × UInt64 × Bytes
  | 0 => (v1, v2, v3, v4, bytes)
  | stripes + 1 =>
    lanes (round v1 (word bytes 0)) (round v2 (word bytes 8)) (round v3 (word bytes 16))
      (round v4 (word bytes 24)) (bytes.drop 32) stripes

/-- Takes in what is left after the stripes. -/
def tail (hash : UInt64) (bytes : Bytes) : UInt64 :=
  match bytes with
  | [] => hash
  | byte :: rest =>
    if 8 ≤ (byte :: rest).length then
      tail (rotate (hash ^^^ round 0 (word (byte :: rest) 0)) 27 * prime1 + prime4) (rest.drop 7)
    else if 4 ≤ (byte :: rest).length then
      let input := UInt64.ofNat (LittleEndian.wordAt (byte :: rest) 0 4)
      tail (rotate (hash ^^^ input * prime1) 23 * prime2 + prime3) (rest.drop 3)
    else
      tail (rotate (hash ^^^ byte.toUInt64 * prime5) 11 * prime1) rest
termination_by bytes.length
decreasing_by all_goals (simp; try omega)

/-- The last mixing of the bits. -/
def avalanche (hash : UInt64) : UInt64 :=
  let hash := (hash ^^^ (hash >>> 33)) * prime2
  let hash := (hash ^^^ (hash >>> 29)) * prime3
  hash ^^^ (hash >>> 32)

/-- The hash of a byte string with seed zero. -/
def hash (bytes : Bytes) : UInt64 :=
  let length := UInt64.ofNat bytes.length
  if bytes.length < 32 then avalanche (tail (prime5 + length) bytes)
  else
    let (v1, v2, v3, v4, rest) := lanes (prime1 + prime2) prime2 0 (0 - prime1) bytes
      (bytes.length / 32)
    let mixed := rotate v1 1 + rotate v2 7 + rotate v3 12 + rotate v4 18
    avalanche (tail (merge (merge (merge (merge mixed v1) v2) v3) v4 + length) rest)

end RaggedTrajectory.XxHash64
