import RaggedTrajectory.Checksum.Crc32
import RaggedTrajectory.Compression.Policy
import RaggedTrajectory.Field.Manifest
import RaggedTrajectory.Snapshot

/-!
# Chunks

A chunk holds the values of one time step: a header of 45 bytes, then the payload. The raw payload
is the fields in the order of the manifest, each with the values of all particles. A field whose
array is missing in the snapshot is filled. The checksum covers the payload as it is stored.
-/

namespace RaggedTrajectory

/-- The header of a chunk. -/
structure ChunkHeader where
  step : UInt32
  recordStart : UInt64
  /-- The number of particles. -/
  count : UInt64
  codec : Codec
  rawLength : UInt64
  storedLength : UInt64
  checksum : UInt32
  deriving DecidableEq, Repr

namespace ChunkHeader

/-- The bytes of a header. -/
def size : Nat := 45

/-- The letters every chunk starts with. -/
def magic : Bytes := [0x53, 0x54, 0x45, 0x50]

/-- The bytes of a header. -/
def encode (header : ChunkHeader) : Bytes :=
  magic ++
  (LittleEndian.encode 4 header.step.toNat ++
  (LittleEndian.encode 8 header.recordStart.toNat ++
  (LittleEndian.encode 8 header.count.toNat ++
  (LittleEndian.encode 1 header.codec.tag.toNat ++
  (LittleEndian.encode 8 header.rawLength.toNat ++
  (LittleEndian.encode 8 header.storedLength.toNat ++
  LittleEndian.encode 4 header.checksum.toNat))))))

/-- Reads the words of a header after the letters at its start. Its tag must be known. -/
def readWords : StateM Bytes (Except Error ChunkHeader) := do
  let step ← LittleEndian.word 4
  let recordStart ← LittleEndian.word 8
  let count ← LittleEndian.word 8
  let tag ← LittleEndian.word 1
  let rawLength ← LittleEndian.word 8
  let storedLength ← LittleEndian.word 8
  let checksum ← LittleEndian.word 4
  match Codec.ofTag? (UInt8.ofNat tag) with
  | none => return .error (.corrupt (.unknownCodecTag tag))
  | some codec =>
    return .ok {
      step := UInt32.ofNat step
      recordStart := UInt64.ofNat recordStart
      count := UInt64.ofNat count
      codec
      rawLength := UInt64.ofNat rawLength
      storedLength := UInt64.ofNat storedLength
      checksum := UInt32.ofNat checksum }

/-- The header at the start of a byte string. -/
def decode (bytes : Bytes) : Except Error ChunkHeader :=
  if bytes.length < size then .error (.corrupt .truncatedChunkHeader)
  else if bytes.take 4 ≠ magic then .error (.corrupt .badChunkMagic)
  else (readWords (bytes.drop 4)).1

@[simp]
theorem length_encode (header : ChunkHeader) : header.encode.length = size := by
  simp [encode, magic, size]

end ChunkHeader

namespace Field

/-- The values of a field in a snapshot of `count` particles, in its own type. An array must have
the shape and the length that the binding of the field asks for. -/
def columnOf (field : Field) (count : Nat) (array : ParticleArray) : Except Error Bytes :=
  let shapeError : Error :=
    .unsupportedFieldShape field.name field.binding.arrayName array.shape field.shape
  let lengthError (expected : Nat) : Error :=
    .particleCountMismatch field.name expected array.data.length
  match field.binding with
  | .array _ =>
    if array.shape ≠ field.shape then .error shapeError
    else if array.data.length ≠ count * field.width then .error (lengthError (count * field.width))
    else .ok (array.data.encodeAs field.dtype (List.range (count * field.width)))
  | .component _ index =>
    if array.shape ≠ .vector3 ∨ field.shape ≠ .scalar then .error shapeError
    else if vectorWidth ≤ index then .error (.schema (.componentOutside field.name index))
    else if array.data.length ≠ count * vectorWidth then
      .error (lengthError (count * vectorWidth))
    else
      .ok (array.data.encodeAs field.dtype
        ((List.range count).map fun i => i * vectorWidth + index))

/-- The bytes of a field whose array is missing. -/
def fillColumn (field : Field) (count : Nat) : Bytes :=
  (field.dtype.encodeElement field.dtype.fill).times (count * field.width)

/-- The bytes of a field in a chunk. -/
def column (field : Field) (snapshot : Snapshot) : Except Error Bytes :=
  match snapshot.get? field.binding.arrayName with
  | none => .ok (field.fillColumn snapshot.count)
  | some array => field.columnOf snapshot.count array

end Field

namespace Chunk

/-- The raw payload of a snapshot: the columns of the fields in order. -/
def payload (snapshot : Snapshot) : List Field → Except Error Bytes
  | [] => .ok []
  | field :: rest => do
    let column ← field.column snapshot
    let columns ← payload snapshot rest
    return column ++ columns

/-- A chunk from its raw payload. -/
def ofPayload (step : UInt32) (recordStart : UInt64) (count : Nat) (raw : Bytes)
    (policy : CompressionPolicy) : Bytes :=
  let (stored, codec) := policy.store raw
  let header : ChunkHeader := {
    step
    recordStart
    count := UInt64.ofNat count
    codec
    rawLength := UInt64.ofNat raw.length
    storedLength := UInt64.ofNat stored.length
    checksum := Crc32.checksum stored }
  header.encode ++ stored

/-- The chunk of a snapshot. -/
def encode (manifest : Manifest) (step : UInt32) (recordStart : UInt64) (snapshot : Snapshot)
    (policy : CompressionPolicy) : Except Error Bytes := do
  let raw ← payload snapshot manifest.fields
  return ofPayload step recordStart snapshot.count raw policy

/-- The values of each field in a raw payload of `count` particles. -/
def columns (count : Nat) : List Field → Bytes → Except Error (List FieldData)
  | [], _ => .ok []
  | field :: rest, raw => do
    let length := count * field.width * field.dtype.size
    let data ← FieldData.decode field.dtype (raw.take length)
    let others ← columns count rest (raw.drop length)
    return data :: others

/-- The header of a chunk and the values of each field. The lengths in the header are checked
before the checksum, which does not cover them. -/
def decode (manifest : Manifest) (bytes : Bytes) : Except Error (ChunkHeader × List FieldData) := do
  let header ← ChunkHeader.decode bytes
  let step := header.step.toNat
  let count := header.count.toNat
  let expected := count * manifest.stride
  let stored := (bytes.drop ChunkHeader.size).take header.storedLength.toNat
  if bytes.length < ChunkHeader.size + header.storedLength.toNat then
    throw (.corrupt (.truncatedChunk step))
  if header.rawLength.toNat ≠ expected then
    throw (.corrupt (.rawLength step header.rawLength.toNat count))
  if Crc32.checksum stored ≠ header.checksum then throw (.checksumMismatch step)
  let raw ← Codec.decompress stored header.codec expected
  let fields ← columns count manifest.fields raw
  return (header, fields)

end Chunk

end RaggedTrajectory
