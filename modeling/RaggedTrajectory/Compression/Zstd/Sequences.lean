import RaggedTrajectory.Compression.Window
import RaggedTrajectory.Compression.Zstd.Fse

/-!
# Sequences

A block copies literals and earlier output in turn. The lengths and offsets are coded: a code says
in which range a number lies and how many further bits tell it apart. The last three offsets have
codes of their own.
-/

namespace RaggedTrajectory.Zstd

/-- A range of numbers: its least one, and the bits that tell its numbers apart. -/
structure CodeRange where
  base : Nat
  bits : Nat
  deriving Inhabited

/-- Ranges that follow one another, from their widths in bits. -/
def rangesFrom (base : Nat) : List Nat → List CodeRange
  | [] => []
  | bits :: rest => ⟨base, bits⟩ :: rangesFrom (base + 2 ^ bits) rest

/-- The codes of the number of literals. -/
def literalLengthCodes : Array CodeRange :=
  (rangesFrom 0 (List.replicate 16 0 ++
    [1, 1, 1, 1, 2, 2, 3, 3, 4, 6, 7, 8, 9, 10, 11, 12, 13, 14, 15, 16])).toArray

/-- The codes of the length of a copy. -/
def matchLengthCodes : Array CodeRange :=
  (rangesFrom 3 (List.replicate 32 0 ++
    [1, 1, 1, 1, 2, 2, 3, 3, 4, 4, 5, 7, 8, 9, 10, 11, 12, 13, 14, 15, 16])).toArray

/-- The distribution of literal lengths where none is described. -/
def literalLengthDefault : Distribution where
  log := 6
  counts := [4, 3, 2, 2, 2, 2, 2, 2, 2, 2, 2, 2, 2, 1, 1, 1, 2, 2, 2, 2, 2, 2, 2, 2, 2, 3, 2, 1,
    1, 1, 1, 1, -1, -1, -1, -1]

/-- The distribution of match lengths where none is described. -/
def matchLengthDefault : Distribution where
  log := 6
  counts := [1, 4, 3, 2, 2, 2, 2, 2, 2, 1, 1, 1, 1, 1, 1, 1, 1, 1, 1, 1, 1, 1, 1, 1, 1, 1, 1, 1,
    1, 1, 1, 1, 1, 1, 1, 1, 1, 1, 1, 1, 1, 1, 1, 1, 1, 1, -1, -1, -1, -1, -1, -1, -1]

/-- The distribution of offset codes where none is described. -/
def offsetDefault : Distribution where
  log := 5
  counts := [1, 1, 1, 1, 1, 1, 2, 2, 2, 1, 1, 1, 1, 1, 1, 1, 1, 1, 1, 1, 1, 1, 1, 1, -1, -1, -1,
    -1, -1]

/-- What is known of a table before it is described. -/
structure TableKind where
  default : Distribution
  /-- The number of codes. -/
  codes : Nat
  /-- The largest logarithm of the number of states. -/
  maxLog : Nat

/-- Tables of literal lengths. -/
def literalLengthKind : TableKind := ⟨literalLengthDefault, 36, 9⟩

/-- Tables of offsets. -/
def offsetKind : TableKind := ⟨offsetDefault, 32, 8⟩

/-- Tables of match lengths. -/
def matchLengthKind : TableKind := ⟨matchLengthDefault, 53, 9⟩

/-- The table for a block, and the rest of the input. The mode says whether it is the default one,
has one state, is described, or is the one of the block before. -/
def TableKind.read? (kind : TableKind) (mode : Nat) (previous : Option FseTable) (input : Bytes) :
    Option (FseTable × Bytes) :=
  match mode with
  | 0 => some (.ofDistribution kind.default, input)
  | 1 =>
    match input with
    | [] => none
    | symbol :: rest =>
      if kind.codes ≤ symbol.toNat then none else some (.single symbol.toNat, rest)
  | 2 => (Distribution.read? kind.codes kind.maxLog input).map fun (distribution, used) =>
    (.ofDistribution distribution, input.drop used)
  | _ => previous.map fun table => (table, input)

/-- The three tables of a block. -/
structure SequenceTables where
  literalLength : FseTable
  offset : FseTable
  matchLength : FseTable

/-- The tables at the start of the input, and the rest of it. -/
def SequenceTables.read? (previous : Option SequenceTables) :
    Bytes → Option (SequenceTables × Bytes)
  | [] => none
  | modes :: input => do
    let modes := modes.toNat
    if modes % 4 ≠ 0 then failure
    let (literalLength, input) ←
      literalLengthKind.read? (modes / 64) (previous.map (·.literalLength)) input
    let (offset, input) ← offsetKind.read? (modes / 16 % 4) (previous.map (·.offset)) input
    let (matchLength, input) ←
      matchLengthKind.read? (modes / 4 % 4) (previous.map (·.matchLength)) input
    return (⟨literalLength, offset, matchLength⟩, input)

/-- The number of sequences, and the rest of the input. -/
def readSequenceCount : Bytes → Option (Nat × Bytes)
  | [] => none
  | first :: rest =>
    if first < 128 then some (first.toNat, rest)
    else if first < 255 then
      match rest with
      | [] => none
      | second :: rest => some ((first.toNat - 128) * 256 + second.toNat, rest)
    else
      match rest with
      | low :: high :: rest => some (low.toNat + high.toNat * 256 + 0x7F00, rest)
      | _ => none

/-- The last three offsets, the latest first. -/
structure RecentOffsets where
  first : Nat
  second : Nat
  third : Nat

/-- The offsets at the start of a frame. -/
def RecentOffsets.initial : RecentOffsets := ⟨1, 4, 8⟩

/-- The offset that a number stands for: numbers up to three mean a recent one, and mean the next
one if there are no literals before the copy. An offset of zero means that the data is corrupt. -/
def RecentOffsets.use (recent : RecentOffsets) (value : Nat) (noLiterals : Bool) :
    Nat × RecentOffsets :=
  if 3 < value then (value - 3, ⟨value - 3, recent.first, recent.second⟩)
  else
    match value + if noLiterals then 1 else 0 with
    | 1 => (recent.first, recent)
    | 2 => (recent.second, ⟨recent.second, recent.first, recent.third⟩)
    | 3 => (recent.third, ⟨recent.third, recent.first, recent.second⟩)
    | _ => (recent.first - 1, ⟨recent.first - 1, recent.first, recent.second⟩)

/-- The states of the three tables. -/
structure SequenceStates where
  literalLength : Nat
  offset : Nat
  matchLength : Nat

/-- The first states. -/
def SequenceTables.start? (tables : SequenceTables) (stream : BackwardBits) :
    Option (SequenceStates × BackwardBits) := do
  let (literalLength, stream) ← tables.literalLength.start? stream
  let (offset, stream) ← tables.offset.start? stream
  let (matchLength, stream) ← tables.matchLength.start? stream
  return (⟨literalLength, offset, matchLength⟩, stream)

/-- The next states. -/
def SequenceTables.next? (tables : SequenceTables) (states : SequenceStates)
    (stream : BackwardBits) : Option (SequenceStates × BackwardBits) := do
  let (literalLength, stream) ← tables.literalLength.next? states.literalLength stream
  let (matchLength, stream) ← tables.matchLength.next? states.matchLength stream
  let (offset, stream) ← tables.offset.next? states.offset stream
  return (⟨literalLength, offset, matchLength⟩, stream)

/-- Carries out sequences: literals, then a copy. What is left of the literals is returned. -/
def runSequences (tables : SequenceTables) (start capacity : Nat) :
    (count : Nat) → SequenceStates → BackwardBits → RecentOffsets → Bytes → Array UInt8 →
      Option (Bytes × Array UInt8 × RecentOffsets)
  | 0, _, stream, recent, literals, output =>
    if stream.left = 0 then some (literals, output, recent) else none
  | count + 1, states, stream, recent, literals, output => do
    let offsetCode := (tables.offset.state states.offset).symbol
    let matchCode :=
      matchLengthCodes.getD (tables.matchLength.state states.matchLength).symbol default
    let literalCode :=
      literalLengthCodes.getD (tables.literalLength.state states.literalLength).symbol default
    let (offsetLow, stream) ← stream.read? offsetCode
    let (matchLow, stream) ← stream.read? matchCode.bits
    let (literalLow, stream) ← stream.read? literalCode.bits
    let literalLength := literalCode.base + literalLow
    let matchLength := matchCode.base + matchLow
    let (offset, recent) := recent.use (2 ^ offsetCode + offsetLow) (literalLength = 0)
    let (taken, literals) ← Compression.split? literalLength literals
    let output := Compression.pushAll output taken
    if offset = 0 ∨ output.size - start < offset ∨ capacity < output.size + matchLength then
      failure
    let output := Compression.copyBack offset matchLength output
    if count = 0 then runSequences tables start capacity 0 states stream recent literals output
    else
      let (states, stream) ← tables.next? states stream
      runSequences tables start capacity count states stream recent literals output

end RaggedTrajectory.Zstd
