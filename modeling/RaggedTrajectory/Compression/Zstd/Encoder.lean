import RaggedTrajectory.Compression.Zstd.LiteralSection
import RaggedTrajectory.Compression.Zstd.SequenceSection
import RaggedTrajectory.Compression.Zstd.StoredFrame

/-!
# Compression to a frame

The data is cut into blocks of the greatest size. In each one copies are found; what they leave are
literals. A block that does not get shorter is stored as it is. `compress` gives the frame only if
it is read back as the data, and else stores all of it.

* `decode_compress`: what was compressed is read back.
-/

namespace RaggedTrajectory.Zstd

open Compression

/-- The bytes that no copy covers. -/
def literalsOf (input : Array UInt8) (start stop lastStart : Nat) (sequences : Array Sequence) :
    Array UInt8 :=
  let (literals, _) := sequences.foldl
    (fun (literals, place) sequence =>
      (literals ++ input.extract place (place + sequence.literals),
        place + sequence.literals + sequence.length))
    ((#[] : Array UInt8), start)
  literals ++ input.extract lastStart stop

/-- The fewest bytes for which copies are looked for. -/
def leastBlock : Nat := 7

/-- Whether all bytes from one place to another are alike. -/
def isUniform (input : Array UInt8) (start stop : Nat) : Bool :=
  commonLength input start (start + 1) (stop - start - 1) = stop - start - 1

/-- A block that describes a part of the data, if that makes it shorter, and what is known after
it. Offsets are only remembered if the block is used. -/
def describedBlock (input : Array UInt8) (start stop : Nat) (past : Past) :
    Option Bytes × Past :=
  let size := stop - start
  if size < leastBlock then (none, past)
  else
    let (sequences, lastStart, after) := findCopies input start stop past
    let literals := literalsOf input start stop lastStart sequences
    let scarce : Bool := sequences.size = 0 ∨ 20 ≤ literals.size / sequences.size
    let block := literalSection scarce literals ++ sequenceSection sequences
    if block.length < size - leastGain size then (some block, after)
    else (none, { past with tables := after.tables })

/-- Blocks for the data from a place on. Bytes that are all alike are given by one of them, but not
in the first block. -/
def blocksFrom (input : Array UInt8) : (fuel start : Nat) → Past → List Bytes
  | 0, _, _ => []
  | fuel + 1, start, past =>
    let stop := min input.size (start + maxBlock)
    let isLast : Bool := stop = input.size
    let (described, after) := describedBlock input start stop past
    let block :=
      match described with
      | some bytes =>
        if 0 < start ∧ bytes.length < 25 ∧ isUniform input start stop then
          blockHeader isLast 1 (stop - start) ++ (input.extract start (start + 1)).toList
        else blockHeader isLast 2 bytes.length ++ bytes
      | none => blockHeader isLast 0 (stop - start) ++ between input start stop
    if isLast then [block] else block :: blocksFrom input fuel stop after

/-- A frame for the data. -/
def propose (data : Bytes) : Bytes :=
  let input := data.toArray
  frameStart input.size ++
    (blocksFrom input (input.size + 1) 0 (Past.initial input.size)).flatten

/-- A frame that is read back as the data. -/
def compress (data : Bytes) : Bytes :=
  let frame := propose data
  if decode data.length frame = some data then frame else storedFrame data

theorem decode_compress (data : Bytes) : decode data.length (compress data) = some data := by
  unfold compress
  by_cases h : decode data.length (propose data) = some data
  · simp [h]
  · simp [h, decode_storedFrame]

end RaggedTrajectory.Zstd
