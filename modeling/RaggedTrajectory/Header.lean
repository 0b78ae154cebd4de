import RaggedTrajectory.Compression.Codec
import RaggedTrajectory.Number.Overflow

/-!
# File headers

A file starts with a header of 256 bytes. It locates the three regions that follow: the schema
block, the table of time steps and the chunks. Only the counters of records and of steps change
after the file is made. Offsets are words of 64 bits. Those of a new file are in range; those that
are read from a file can be any, and `Overflow` says what a check does at a sum that is too large.
-/

namespace RaggedTrajectory

/-- The header of a file. -/
structure Header where
  magic : UInt64
  versionMajor : UInt16
  versionMinor : UInt16
  format : FileFormat
  /-- The codec that was asked for; a chunk may still be stored as it is. -/
  codec : Codec
  /-- The length of the component axis. -/
  vectorWidth : UInt16
  /-- The length of the time axis. -/
  stepCount : UInt32
  schemaOffset : UInt64
  schemaLength : UInt64
  tableOffset : UInt64
  /-- The offset of the first chunk. -/
  dataOffset : UInt64
  /-- The length of the record axis. -/
  recordLength : UInt64
  stepsWritten : UInt32
  deriving DecidableEq, Repr

namespace Header

/-- The bytes of a header. -/
def size : Nat := 256

/-- The bytes of an entry of the table of steps. -/
def entrySize : Nat := 40

/-- The number every file starts with: the letters `PTRJ`, and the bytes 0, 1, 0, 0. -/
def expectedMagic : UInt64 := 0x000001004A525450

/-- The header of a new file. -/
def create (format : FileFormat) (codec : Codec) (stepCount : UInt32) (schemaLength : UInt64) :
    Header where
  magic := expectedMagic
  versionMajor := 1
  versionMinor := 0
  format
  codec
  vectorWidth := UInt16.ofNat RaggedTrajectory.vectorWidth
  stepCount
  schemaOffset := UInt64.ofNat size
  schemaLength
  tableOffset := UInt64.ofNat size + schemaLength
  dataOffset := UInt64.ofNat size + schemaLength + stepCount.toUInt64 * UInt64.ofNat entrySize
  recordLength := 0
  stepsWritten := 0

/-- The offset of the table entry of a step. -/
def entryOffset (header : Header) (step : UInt32) : UInt64 :=
  header.tableOffset + step.toUInt64 * UInt64.ofNat entrySize

/-- Whether each region starts where the one before it ends. Both ends are added up before any
offset is compared. -/
def hasConsistentOffsets (overflow : Overflow) (header : Header) : Except Error Bool := do
  let table ← overflow.add header.schemaOffset header.schemaLength
  let data ← overflow.add table (header.stepCount.toUInt64 * UInt64.ofNat entrySize)
  return header.schemaOffset = UInt64.ofNat size ∧ header.tableOffset = table ∧
    header.dataOffset = data

/-- Accepts the headers of well-formed files; otherwise gives the first fault. -/
def validate (overflow : Overflow) (header : Header) : Except Error Unit :=
  if header.magic ≠ expectedMagic then .error .invalidMagic
  else if header.versionMajor ≠ 1 ∨ header.versionMinor ≠ 0 then
    .error (.unsupportedVersion header.versionMajor.toNat header.versionMinor.toNat)
  else if header.vectorWidth.toNat ≠ RaggedTrajectory.vectorWidth then
    .error (.corrupt (.vectorWidth header.vectorWidth.toNat))
  else do
    let consistent ← header.hasConsistentOffsets overflow
    if ¬consistent then .error (.corrupt .inconsistentOffsets)
    else if header.stepCount < header.stepsWritten then
      .error (.corrupt (.tooManySteps header.stepsWritten.toNat header.stepCount.toNat))
    else .ok ()

/-- The words of a header, with nothing after them. -/
def words (header : Header) : Bytes :=
  LittleEndian.encode 8 header.magic.toNat ++
  (LittleEndian.encode 2 header.versionMajor.toNat ++
  (LittleEndian.encode 2 header.versionMinor.toNat ++
  (LittleEndian.encode 1 header.format.tag.toNat ++
  (LittleEndian.encode 1 header.codec.tag.toNat ++
  (LittleEndian.encode 2 header.vectorWidth.toNat ++
  (LittleEndian.encode 4 header.stepCount.toNat ++
  (LittleEndian.encode 8 header.schemaOffset.toNat ++
  (LittleEndian.encode 8 header.schemaLength.toNat ++
  (LittleEndian.encode 8 header.tableOffset.toNat ++
  (LittleEndian.encode 8 header.dataOffset.toNat ++
  (LittleEndian.encode 8 header.recordLength.toNat ++
  LittleEndian.encode 4 header.stepsWritten.toNat)))))))))))

/-- The bytes of a header: its words, and zeros up to its size. -/
def encode (header : Header) : Bytes := header.words ++ List.replicate 192 0

/-- Reads the words of a header. Its tags must be known. -/
def readWords : StateM Bytes (Except Error Header) := do
  let magic ← LittleEndian.word 8
  let versionMajor ← LittleEndian.word 2
  let versionMinor ← LittleEndian.word 2
  let formatTag ← LittleEndian.word 1
  let codecTag ← LittleEndian.word 1
  let vectorWidth ← LittleEndian.word 2
  let stepCount ← LittleEndian.word 4
  let schemaOffset ← LittleEndian.word 8
  let schemaLength ← LittleEndian.word 8
  let tableOffset ← LittleEndian.word 8
  let dataOffset ← LittleEndian.word 8
  let recordLength ← LittleEndian.word 8
  let stepsWritten ← LittleEndian.word 4
  if UInt64.ofNat magic ≠ expectedMagic then return .error .invalidMagic
  match FileFormat.ofTag? (UInt8.ofNat formatTag), Codec.ofTag? (UInt8.ofNat codecTag) with
  | none, _ => return .error (.corrupt (.unknownFormatTag formatTag))
  | _, none => return .error (.corrupt (.unknownCodecTag codecTag))
  | some format, some codec =>
    return .ok {
      magic := UInt64.ofNat magic
      versionMajor := UInt16.ofNat versionMajor
      versionMinor := UInt16.ofNat versionMinor
      format
      codec
      vectorWidth := UInt16.ofNat vectorWidth
      stepCount := UInt32.ofNat stepCount
      schemaOffset := UInt64.ofNat schemaOffset
      schemaLength := UInt64.ofNat schemaLength
      tableOffset := UInt64.ofNat tableOffset
      dataOffset := UInt64.ofNat dataOffset
      recordLength := UInt64.ofNat recordLength
      stepsWritten := UInt32.ofNat stepsWritten }

/-- The header at the start of a byte string. -/
def decode (overflow : Overflow) (bytes : Bytes) : Except Error Header :=
  if bytes.length < size then .error (.refused .shortHeader)
  else do
    let header ← (readWords bytes).1
    header.validate overflow
    return header

theorem length_words (header : Header) : header.words.length = 64 := by simp [words]

@[simp]
theorem length_encode (header : Header) : header.encode.length = size := by
  rw [encode, List.length_append, length_words, List.length_replicate]
  rfl

end Header

end RaggedTrajectory
