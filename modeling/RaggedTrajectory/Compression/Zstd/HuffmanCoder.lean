import RaggedTrajectory.Compression.Zstd.CodeLengths
import RaggedTrajectory.Compression.Zstd.Huffman
import RaggedTrajectory.Compression.Zstd.Normalize
import RaggedTrajectory.Compression.Zstd.StateCoder

/-!
# Coding literals with a Huffman code

The code words of a code are those of the table it is read with: the word of a byte is the common
start of the indices of its cells. The weights that describe the code are themselves coded where
that is shorter.
-/

namespace RaggedTrajectory.Zstd

/-- The weight of each byte value, up to the last one that comes up, and the length of the longest
code word. -/
structure CodeWeights where
  log : Nat
  weights : List Nat

namespace CodeWeights

/-- The longest code word that is made. -/
def maxLength : Nat := 11

/-- The weights for the counts of byte values, of which there are `total`. -/
def ofCounts (total : Nat) (counts : List Nat) : CodeWeights :=
  let limit := Distribution.suitableLog maxLength 1 total (counts.length - 1)
  let ranked := (counts.zipIdx.filter (·.1 ≠ 0)).mergeSort fun a b => b.1 ≤ a.1
  let lengths := CodeLengths.limited limit (ranked.map Prod.fst)
  let log := lengths.foldl max 0
  let weights := (ranked.zip lengths).foldl
    (fun weights ((_, symbol), length) => weights.setIfInBounds symbol (log + 1 - length))
    (Array.replicate counts.length 0)
  ⟨log, weights.toList⟩

/-- The weights that are written, which are all but the last one. -/
def written (code : CodeWeights) : List Nat := code.weights.dropLast

/-- The weights coded with a table of their own, if they are not all alike or all different. -/
def describeCoded (code : CodeWeights) : Option Bytes :=
  let weights := code.written
  let counts := countSymbols (HuffmanTable.maxLog + 1) weights
  let most := counts.foldl max 0
  if most = weights.length ∨ most = 1 then none
  else
    let log := Distribution.suitableLog 6 2 weights.length (counts.length - 1)
    let distribution := Distribution.ofCounts log false counts
    let coder := (FseTable.ofDistribution distribution).coder (HuffmanTable.maxLog + 1)
    match weights.reverse with
    | last :: before :: rest =>
      let bits := coder.putAlternately rest (coder.final last) (coder.final before) .empty
      some (distribution.describe ++ bits.close)
    | _ => none

/-- Pairs of weights as bytes, the first one in the high half. -/
def pairs : List Nat → Bytes
  | [] => []
  | [weight] => [UInt8.ofNat (16 * weight)]
  | first :: second :: rest => UInt8.ofNat (16 * first + second) :: pairs rest

/-- The description of a code: coded weights if they take less than four bits each, else the
weights themselves, of which there may be 128. -/
def describe (code : CodeWeights) : Option Bytes :=
  let count := code.written.length
  match code.describeCoded.filter fun coded => coded.length < count / 2 with
  | some coded => some (UInt8.ofNat coded.length :: coded)
  | none => if 128 < count then none else some (UInt8.ofNat (127 + count) :: pairs code.written)

/-- The code word of each byte value, and its length. -/
def words (code : CodeWeights) : Array (Nat × Nat) :=
  (HuffmanTable.ofWeights code.weights code.log).cells.zipIdx.foldr
    (fun ((symbol, length), index) words =>
      words.setIfInBounds symbol.toNat (index / 2 ^ (code.log - length), length))
    (Array.replicate 256 (0, 0))

end CodeWeights

/-- A stream of bytes, coded from the last one to the first. -/
def huffmanStream (words : Array (Nat × Nat)) (input : Array UInt8) (start stop : Nat) : Bytes :=
  ((input.extract start stop).foldr (fun byte writer =>
    let (word, length) := words.getD byte.toNat (0, 0)
    writer.put word length) BitWriter.empty).close

/-- Four streams of about the same number of bytes, after the lengths of the first three. -/
def huffmanFour (words : Array (Nat × Nat)) (input : Array UInt8) : Bytes :=
  let quarter := (input.size + 3) / 4
  let stream (i : Nat) := huffmanStream words input (i * quarter) ((i + 1) * quarter)
  let streams := [stream 0, stream 1, stream 2]
  streams.flatMap (fun bytes => LittleEndian.encode 2 bytes.length) ++ streams.flatten ++ stream 3

end RaggedTrajectory.Zstd
