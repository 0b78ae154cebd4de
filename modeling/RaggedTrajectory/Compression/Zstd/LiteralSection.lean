import RaggedTrajectory.Compression.Zstd.HuffmanCoder

/-!
# The literals of a block

Literals are kept as they are, given as one byte that is repeated, or coded, whichever is worth it:
coding must save a sixty-fourth of the length, and it is not tried where the bytes are few or come
up about equally often.
-/

namespace RaggedTrajectory.Zstd

/-- How much coding must save. -/
def leastGain (length : Nat) : Nat := length / 64 + 2

/-- The fewest literals that are coded. -/
def leastLiterals : Nat := 64

/-- The header of literals that are kept or repeated: the kind and their number. -/
def plainHeader (kind count : Nat) : Bytes :=
  if count < 32 then LittleEndian.encode 1 (kind + 8 * count)
  else if count < 4096 then LittleEndian.encode 2 (kind + 4 + 16 * count)
  else LittleEndian.encode 3 (kind + 12 + 16 * count)

/-- The header of coded literals: their number and the number of bytes that code them. -/
def codedHeader (count size : Nat) : Bytes :=
  if count < 256 then LittleEndian.encode 3 (2 + 16 * count + 2 ^ 14 * size)
  else if count < 1024 then LittleEndian.encode 3 (6 + 16 * count + 2 ^ 14 * size)
  else if count < 16384 then LittleEndian.encode 4 (10 + 16 * count + 2 ^ 18 * size)
  else LittleEndian.encode 5 (14 + 16 * count + 2 ^ 22 * size)

/-- Whether samples at both ends of many literals look as if coding did not help. -/
def looksRandom (literals : Array UInt8) : Bool :=
  let sample := 4096
  let most (part : Array UInt8) : Nat :=
    (countSymbols 256 (part.toList.map UInt8.toNat)).foldl max 0
  10 * sample ≤ literals.size ∧
    most (literals.extract 0 sample) +
      most (literals.extract (literals.size - sample) literals.size) ≤ 2 * sample / 128 + 4

/-- Literals with a code of their own, unless they are short or come up about equally often. -/
def codedLiterals (literals : Array UInt8) (counts : List Nat) : Option Bytes :=
  let total := literals.size
  if counts.foldl max 0 ≤ total / 128 + 4 then none
  else
    let code := CodeWeights.ofCounts total counts
    match code.describe with
    | none => none
    | some description =>
      if total ≤ description.length + 12 then none
      else
        let words := code.words
        let streams :=
          if total < 256 then huffmanStream words literals 0 total else huffmanFour words literals
        let bytes := description ++ streams
        if total - leastGain total ≤ bytes.length then none
        else some (codedHeader total bytes.length ++ bytes)

/-- The literals of a block. `scarce` says that there are few copies among them. -/
def literalSection (scarce : Bool) (literals : Array UInt8) : Bytes :=
  let total := literals.size
  let kept := plainHeader 0 total ++ literals.toList
  if total < leastLiterals ∨ (scarce ∧ looksRandom literals) then kept
  else
    let counts := countSymbols 256 (literals.toList.map UInt8.toNat)
    if counts.getLast? = some total then plainHeader 1 total ++ (literals.toList.take 1)
    else (codedLiterals literals counts).getD kept

end RaggedTrajectory.Zstd
