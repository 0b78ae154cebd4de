import RaggedTrajectory.Compression.Zstd.MatchFinder
import RaggedTrajectory.Compression.Zstd.Normalize
import RaggedTrajectory.Compression.Zstd.Sequences
import RaggedTrajectory.Compression.Zstd.StateCoder

/-!
# The sequences of a block

The numbers of each sequence become codes and further bits. The codes of each sort have a table:
one with a single state where all are alike, the default one where they are few or about equally
frequent, else one that is described. The bits are written from the last sequence to the first.
-/

namespace RaggedTrajectory.Zstd

/-- A number as a code and the bits that tell it apart. -/
structure CodedNumber where
  code : Nat
  low : Nat
  bits : Nat

namespace CodedNumber

/-- The code of the range that a number lies in. -/
def ofRanges (ranges : Array CodeRange) (value : Nat) : CodedNumber :=
  let code := (ranges.findIdx? fun range => value < range.base + 2 ^ range.bits).getD 0
  let range := ranges.getD code default
  ⟨code, value - range.base, range.bits⟩

/-- The code of an offset is its logarithm. -/
def ofOffset (value : Nat) : CodedNumber := ⟨value.log2, value - 2 ^ value.log2, value.log2⟩

/-- Writes the bits that follow the code. -/
def putLow (number : CodedNumber) (writer : BitWriter) : BitWriter :=
  writer.put number.low number.bits

end CodedNumber

/-- The numbers of a sequence. -/
structure CodedSequence where
  literals : CodedNumber
  offset : CodedNumber
  length : CodedNumber

namespace CodedSequence

/-- The codes of a sequence. -/
def ofSequence (sequence : Sequence) : CodedSequence where
  literals := .ofRanges literalLengthCodes sequence.literals
  offset := .ofOffset sequence.offset
  length := .ofRanges matchLengthCodes sequence.length

/-- Writes the bits that follow the codes. -/
def putLow (sequence : CodedSequence) (writer : BitWriter) : BitWriter :=
  sequence.offset.putLow (sequence.length.putLow (sequence.literals.putLow writer))

end CodedSequence

/-- How a table is given: the mode, the bytes that go with it, and the table itself. -/
structure TableChoice where
  mode : Nat
  description : Bytes
  table : FseTable

namespace TableKind

/-- The default table. -/
def useDefault (kind : TableKind) : TableChoice := ⟨0, [], .ofDistribution kind.default⟩

/-- The table with a single state. -/
def useSingle (code : Nat) : TableChoice := ⟨1, [UInt8.ofNat code], .single code⟩

/-- A table that suits the codes. The last one is not counted where others are like it, because it
is given by the state that reading starts with. -/
def useDescribed (kind : TableKind) (counts : List Nat) (total last : Nat) : TableChoice :=
  let log := Distribution.suitableLog kind.maxLog 2 total (counts.length - 1)
  let spared := if 1 < counts.getD last 0 then counts.modify last (· - 1) else counts
  let distribution := Distribution.ofCounts log (2048 ≤ sumOf spared) spared
  ⟨2, distribution.describe, .ofDistribution distribution⟩

/-- The table for codes. -/
def choose (kind : TableKind) (codes : List Nat) : TableChoice :=
  let counts := countSymbols kind.codes codes
  let total := codes.length
  let most := counts.foldl max 0
  let fits : Bool := counts.length ≤ kind.default.counts.length
  if most = total then
    if fits ∧ total ≤ 2 then kind.useDefault else useSingle (counts.length - 1)
  else if fits ∧ (total < 2 ^ kind.default.log ∨ most < total / 2 ^ (kind.default.log - 1)) then
    kind.useDefault
  else kind.useDescribed counts total (codes.getLastD 0)

/-- The table turned round. -/
def coder (kind : TableKind) (choice : TableChoice) : StateCoder := choice.table.coder kind.codes

end TableKind

/-- The number of sequences. -/
def sequenceCount (count : Nat) : Bytes :=
  if count < 128 then [UInt8.ofNat count]
  else if count < 0x7F00 then [UInt8.ofNat (count / 256 + 128), UInt8.ofNat (count % 256)]
  else 255 :: LittleEndian.encode 2 (count - 0x7F00)

/-- The three tables turned round. -/
structure SequenceCoders where
  literals : StateCoder
  offset : StateCoder
  length : StateCoder

namespace SequenceCoders

/-- The states for the last sequence. -/
def final (coders : SequenceCoders) (sequence : CodedSequence) : SequenceStates where
  literalLength := coders.literals.final sequence.literals.code
  offset := coders.offset.final sequence.offset.code
  matchLength := coders.length.final sequence.length.code

/-- The states of a sequence before others. -/
def step (coders : SequenceCoders) (sequence : CodedSequence) (states : SequenceStates)
    (writer : BitWriter) : SequenceStates × BitWriter :=
  let (offset, writer) := coders.offset.step sequence.offset.code states.offset writer
  let (length, writer) := coders.length.step sequence.length.code states.matchLength writer
  let (literals, writer) := coders.literals.step sequence.literals.code states.literalLength writer
  (⟨literals, offset, length⟩, writer)

/-- Writes the states that reading starts with. -/
def putStates (coders : SequenceCoders) (states : SequenceStates) (writer : BitWriter) :
    BitWriter :=
  coders.literals.putState states.literalLength
    (coders.offset.putState states.offset (coders.length.putState states.matchLength writer))

/-- The bits of sequences, of which the last one comes first here. -/
def stream (coders : SequenceCoders) : List CodedSequence → Bytes
  | [] => []
  | last :: before =>
    let (states, writer) := before.foldl
      (fun (states, writer) sequence =>
        let (states, writer) := coders.step sequence states writer
        (states, sequence.putLow writer))
      (coders.final last, last.putLow .empty)
    (coders.putStates states writer).close

end SequenceCoders

/-- The sequences of a block. -/
def sequenceSection (sequences : Array Sequence) : Bytes :=
  let coded := sequences.toList.map CodedSequence.ofSequence
  if coded.isEmpty then sequenceCount 0
  else
    let literals := literalLengthKind.choose (coded.map (·.literals.code))
    let offset := offsetKind.choose (coded.map (·.offset.code))
    let length := matchLengthKind.choose (coded.map (·.length.code))
    let coders : SequenceCoders :=
      ⟨literalLengthKind.coder literals, offsetKind.coder offset, matchLengthKind.coder length⟩
    sequenceCount coded.length ++
      UInt8.ofNat (64 * literals.mode + 16 * offset.mode + 4 * length.mode) ::
        (literals.description ++ offset.description ++ length.description ++
          coders.stream coded.reverse)

end RaggedTrajectory.Zstd
