import RaggedTrajectory.Compression.Zstd.Fse

/-!
# Huffman codes of literals

A code is described by a weight for each byte value: a byte of weight `w` has `2 ^ (w - 1)` cells
of the table, which is indexed by as many bits as the longest code word has. The weight of the last
value is not written, because the cells must make up a power of two.
-/

namespace RaggedTrajectory.Zstd

/-- A table of code words, indexed by the next `log` bits: the byte and the length of its word. -/
structure HuffmanTable where
  log : Nat
  cells : Array (UInt8 × Nat)

namespace HuffmanTable

/-- The longest code word. -/
def maxLog : Nat := 12

/-- Weights of four bits, the high half of a byte first. -/
def nibbles (bytes : Bytes) : List Nat := bytes.flatMap fun b => [b.toNat / 16, b.toNat % 16]

/-- Weights coded with two states that take turns, until the bits run out. Before the last weight
there may be as many as `room` others. -/
def alternate (table : FseTable) :
    (room : Nat) → (first second : Nat) → BackwardBits → Option (List Nat)
  | 0, _, _, _ => none
  | room + 1, first, second, stream =>
    match table.next? first stream with
    | none => some [(table.state first).symbol, (table.state second).symbol]
    | some (next, stream) =>
      (alternate table room second next stream).map ((table.state first).symbol :: ·)

/-- Weights that are coded with a table of their own. -/
def readCodedWeights (input : Bytes) : Option (List Nat) := do
  let (distribution, used) ← Distribution.read? 256 6 input
  let table := FseTable.ofDistribution distribution
  let stream ← BackwardBits.ofBytes? (input.drop used)
  let (first, stream) ← table.start? stream
  let (second, stream) ← table.start? stream
  alternate table 254 first second stream

/-- The written weights at the start of the input, and the number of bytes they take. -/
def readWeights : Bytes → Option (List Nat × Nat)
  | [] => none
  | header :: rest =>
    let length := header.toNat
    if 128 ≤ length then
      let count := length - 127
      let size := (count + 1) / 2
      if rest.length < size then none
      else some ((nibbles (rest.take size)).take count, size + 1)
    else if rest.length < length then none
    else (readCodedWeights (rest.take length)).map fun weights => (weights, length + 1)

/-- The cells of a weight. -/
def cellsOf (weight : Nat) : Nat := if weight = 0 then 0 else 2 ^ (weight - 1)

/-- All weights, when the last one is added, and the logarithm of the number of cells. -/
def complete? (weights : List Nat) : Option (List Nat × Nat) :=
  if weights.any (maxLog < ·) then none
  else
    let total := sumOf (weights.map cellsOf)
    if total = 0 then none
    else
      let log := total.log2 + 1
      let rest := 2 ^ log - total
      if maxLog < log ∨ 2 ^ rest.log2 ≠ rest then none
      else
        let all := weights ++ [rest.log2 + 1]
        let ones := all.count 1
        if ones < 2 ∨ ones % 2 = 1 then none else some (all, log)

/-- The cells in order: light weights first, within a weight by the value of the byte. -/
def ofWeights (weights : List Nat) (log : Nat) : HuffmanTable :=
  let cells := (List.range (log + 1)).flatMap fun weight =>
    if weight = 0 then []
    else weights.zipIdx.flatMap fun (w, symbol) =>
      if w = weight then
        List.replicate (cellsOf weight) (UInt8.ofNat symbol, log + 1 - weight)
      else []
  ⟨log, cells.toArray⟩

/-- The table described at the start of the input, and the number of bytes of the description. -/
def read? (input : Bytes) : Option (HuffmanTable × Nat) := do
  let (weights, used) ← readWeights input
  let (weights, log) ← complete? weights
  return (ofWeights weights log, used)

/-- Reads `count` bytes; the stream must end with the last of them. -/
def readStream (table : HuffmanTable) :
    (count : Nat) → BackwardBits → Array UInt8 → Option (Array UInt8)
  | 0, stream, output => if stream.left = 0 then some output else none
  | count + 1, stream, output =>
    let (symbol, length) := table.cells.getD (stream.peek table.log) (0, 0)
    if stream.left < length then none
    else
      readStream table count { stream with left := stream.left - length } (output.push symbol)

/-- Reads one stream. -/
def readSingle (table : HuffmanTable) (count : Nat) (input : Bytes) (output : Array UInt8) :
    Option (Array UInt8) :=
  (BackwardBits.ofBytes? input).bind fun stream => table.readStream count stream output

/-- Reads four streams, whose lengths but the last stand before them. All but the last hold the
same number of bytes. -/
def readFour (table : HuffmanTable) (count : Nat) (input : Bytes) : Option (Array UInt8) :=
  let size (i : Nat) := LittleEndian.wordAt input (2 * i) 2
  let quarter := (count + 3) / 4
  let used := size 0 + size 1 + size 2 + 6
  if input.length < 10 ∨ input.length < used ∨ count < 6 ∨ count < 3 * quarter then none
  else do
    let output ← table.readSingle quarter (input.slice 6 (size 0)) #[]
    let output ← table.readSingle quarter (input.slice (6 + size 0) (size 1)) output
    let output ← table.readSingle quarter (input.slice (6 + size 0 + size 1) (size 2)) output
    table.readSingle (count - 3 * quarter) (input.drop used) output

end HuffmanTable

end RaggedTrajectory.Zstd
