import RaggedTrajectory.Checksum.XxHash64
import RaggedTrajectory.Compression.Zstd.Huffman
import RaggedTrajectory.Compression.Zstd.Sequences

/-!
# Frames

Data is a row of frames, between which frames of foreign data may stand. A frame has a header, a
row of blocks, and on request a checksum of what it stands for. `decode` puts out at most a given
number of bytes and refuses all else.
-/

namespace RaggedTrajectory.Zstd

open Compression

/-- The most bytes of a block. -/
def maxBlock : Nat := 131072

/-- What one block of a frame leaves for the next. -/
structure BlockContext where
  huffman : Option HuffmanTable
  tables : Option SequenceTables
  recent : RecentOffsets

/-- What the first block of a frame starts with. -/
def BlockContext.initial : BlockContext := ⟨none, none, .initial⟩

/-- A field of a header of literals: bits of its first bytes as a little-endian word. -/
def headerBits (input : Bytes) (start count : Nat) : Nat :=
  bitsAt (LittleEndian.wordAt input 0 5) start count

/-- Literals that are stored, or all alike: the literals, and the rest of the block. -/
def readPlainLiterals (alike : Bool) (limit : Nat) (block : Bytes) : Option (Bytes × Bytes) :=
  let (header, count) :=
    match headerBits block 2 2 with
    | 1 => (2, headerBits block 4 12)
    | 3 => (3, headerBits block 4 20)
    | _ => (1, headerBits block 3 5)
  if limit < count ∨ block.length < header then none
  else if alike then
    match block.drop header with
    | [] => none
    | b :: rest => some (List.replicate count b, rest)
  else split? count (block.drop header)

/-- Literals that are coded, with a table of their own or the one of the block before: the
literals, the table, and the rest of the block. -/
def readCodedLiterals (previous : Option HuffmanTable) (limit : Nat) (block : Bytes) :
    Option (Bytes × HuffmanTable × Bytes) := do
  let repeated := headerBits block 0 2 = 3
  let form := headerBits block 2 2
  let (header, width) :=
    match form with
    | 2 => (4, 14)
    | 3 => (5, 18)
    | _ => (3, 10)
  let count := headerBits block 4 width
  let size := headerBits block (4 + width) width
  if block.length < 5 ∨ limit < count ∨ block.length < size + header then failure
  let coded := block.slice header size
  let (table, used) ←
    if repeated then previous.map fun table => (table, 0) else HuffmanTable.read? coded
  let streams := coded.drop used
  let literals ←
    if form = 0 then table.readSingle count streams #[] else table.readFour count streams
  return (literals.toList, table, block.drop (size + header))

/-- The literals of a block, the table for coded ones, and the rest of the block. -/
def readLiterals (previous : Option HuffmanTable) (limit : Nat) (block : Bytes) :
    Option (Bytes × Option HuffmanTable × Bytes) :=
  match headerBits block 0 2 with
  | 0 => (readPlainLiterals false limit block).map fun (literals, rest) =>
    (literals, previous, rest)
  | 1 => (readPlainLiterals true limit block).map fun (literals, rest) =>
    (literals, previous, rest)
  | _ => (readCodedLiterals previous limit block).map fun (literals, table, rest) =>
    (literals, some table, rest)

/-- Puts out what a compressed block stands for. `start` is where the output of the frame begins. -/
def decodeBlock (start capacity blockLimit : Nat) (context : BlockContext) (block : Bytes)
    (output : Array UInt8) : Option (Array UInt8 × BlockContext) := do
  if blockLimit < block.length ∨ block.length < 2 then failure
  let limit := min blockLimit (capacity - output.size)
  let (literals, huffman, block) ← readLiterals context.huffman limit block
  let (count, block) ← readSequenceCount block
  if count = 0 then
    if block ≠ [] ∨ capacity < output.size + literals.length then failure
    return (pushAll output literals, { context with huffman })
  else
    let (tables, block) ← SequenceTables.read? context.tables block
    let stream ← BackwardBits.ofBytes? block
    let (states, stream) ← tables.start? stream
    let (literals, output, recent) ←
      runSequences tables start capacity count states stream context.recent literals output
    if capacity < output.size + literals.length then failure
    return (pushAll output literals, ⟨huffman, some tables, recent⟩)

/-- Puts out what blocks stand for, up to the last one, and returns the rest of the input. -/
def decodeBlocks (start capacity blockLimit : Nat) :
    (fuel : Nat) → BlockContext → Bytes → Array UInt8 → Option (Array UInt8 × Bytes)
  | 0, _, _, _ => none
  | fuel + 1, context, input, output => do
    let (header, input) ← split? 3 input
    let header := LittleEndian.decode header
    let size := header / 8
    let (output, context, input) ←
      match header / 2 % 4 with
      | 0 =>
        (split? size input).bind fun (block, input) =>
          if capacity < output.size + size then none
          else some (pushAll output block, context, input)
      | 1 =>
        match input with
        | [] => none
        | b :: input =>
          if capacity < output.size + size then none
          else some (pushAll output (List.replicate size b), context, input)
      | 2 =>
        (split? size input).bind fun (block, input) =>
          (decodeBlock start capacity blockLimit context block output).map
            fun (output, context) => (output, context, input)
      | _ => none
    if header % 2 = 1 then return (output, input)
    else decodeBlocks start capacity blockLimit fuel context input output

/-- The header of a frame. -/
structure FrameHeader where
  /-- The number of bytes that copies can reach back, where it is given. -/
  window : Option Nat
  contentSize : Option Nat
  hasChecksum : Bool

/-- The window that a byte describes: a power of two, and eighths of it. -/
def windowSize (b : Nat) : Nat :=
  let power := 2 ^ (b / 8 + 10)
  power + power / 8 * (b % 8)

/-- The header after the magic number, and the rest of the input. A frame that asks for a
dictionary is refused. -/
def FrameHeader.read? : Bytes → Option (FrameHeader × Bytes)
  | [] => none
  | descriptor :: input => do
    let descriptor := descriptor.toNat
    let isSingle : Bool := descriptor / 32 % 2 = 1
    let dictionarySize := if descriptor % 4 = 3 then 4 else descriptor % 4
    let sizeSize :=
      match descriptor / 64 with
      | 0 => if isSingle then 1 else 0
      | 1 => 2
      | 2 => 4
      | _ => 8
    if descriptor / 8 % 2 = 1 then failure
    let (window, input) ← split? (if isSingle then 0 else 1) input
    let window := window.head?.map UInt8.toNat
    if window.any (176 ≤ ·) then failure
    let (dictionary, input) ← split? dictionarySize input
    if LittleEndian.decode dictionary ≠ 0 then failure
    let (size, input) ← split? sizeSize input
    let contentSize :=
      if sizeSize = 0 then none
      else some (LittleEndian.decode size + if sizeSize = 2 then 256 else 0)
    return (⟨window.map windowSize, contentSize, descriptor / 4 % 2 = 1⟩, input)

/-- Puts out what a frame stands for, after its magic number, and returns the rest of the input. -/
def decodeFrame (capacity : Nat) (input : Bytes) (output : Array UInt8) :
    Option (Array UInt8 × Bytes) := do
  let start := output.size
  let (header, input) ← FrameHeader.read? input
  let blockLimit := min maxBlock ((header.window <|> header.contentSize).getD maxBlock)
  let (output, input) ←
    decodeBlocks start capacity blockLimit (input.length + 1) .initial input output
  if header.contentSize.any (· ≠ output.size - start) then failure
  if header.hasChecksum then
    let (checksum, input) ← split? 4 input
    let content := (output.extract start output.size).toList
    if LittleEndian.decode checksum ≠ (XxHash64.hash content).toNat % 2 ^ 32 then failure
    return (output, input)
  else return (output, input)

/-- The number before a frame. -/
def frameMagic : Nat := 0xFD2FB528

/-- Puts out what frames stand for, until the input ends. Frames of foreign data are left out. -/
def decodeFrames (capacity : Nat) : (fuel : Nat) → Bytes → Array UInt8 → Option (Array UInt8)
  | 0, _, _ => none
  | _, [], output => some output
  | fuel + 1, input, output =>
    if input.length < 5 then none
    else
      let magic := LittleEndian.wordAt input 0 4
      if magic / 16 = 0x184D2A5 then
        let size := 8 + LittleEndian.wordAt input 4 4
        if input.length < size then none else decodeFrames capacity fuel (input.drop size) output
      else if magic ≠ frameMagic then none
      else
        match decodeFrame capacity (input.drop 4) output with
        | none => none
        | some (output, rest) => decodeFrames capacity fuel rest output

/-- The data that frames stand for, of at most `capacity` bytes. -/
def decode (capacity : Nat) (input : Bytes) : Option Bytes :=
  (decodeFrames capacity (input.length + 1) input #[]).map Array.toList

end RaggedTrajectory.Zstd
