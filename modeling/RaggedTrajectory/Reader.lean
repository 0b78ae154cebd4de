import RaggedTrajectory.Chunk
import RaggedTrajectory.Disk.Request
import RaggedTrajectory.FileSchema
import RaggedTrajectory.StepTable

/-!
# Readers

A reader takes header, schema and table from a file once and decodes chunks when they are asked for.
Every region is checked against the bounds of the file before it is read. A file that was left by
an interrupted run can be read up to its last complete step.
-/

namespace RaggedTrajectory

/-- A file that is open for reading. -/
structure Reader where
  bytes : Bytes
  header : Header
  schema : FileSchema
  manifest : Manifest
  entries : List StepEntry

/-- The bytes of a file from `offset` on, `length` of them. They must lie behind the header and
before the end. -/
def Bytes.region (bytes : Bytes) (offset length : UInt64) (name : String) :
    Except Error Bytes :=
  if offset.toNat + length.toNat ≤ bytes.length ∧ Header.size ≤ offset.toNat then
    .ok (bytes.slice offset.toNat length.toNat)
  else .error (.corrupt (.outsideFile name))

namespace Reader

/-- Opens the file with given bytes. -/
def ofBytes (overflow : Overflow) (bytes : Bytes) : Except Error Reader := do
  let header ← Header.decode overflow bytes
  let block ← bytes.region header.schemaOffset header.schemaLength "schema block"
  let schema ← FileSchema.decode block
  let manifest ← schema.manifest
  let tableLength := header.stepCount.toUInt64 * UInt64.ofNat Header.entrySize
  let table ← bytes.region header.tableOffset tableLength "step table"
  return ⟨bytes, header, schema, manifest, StepTable.decode header.stepCount.toNat table⟩

/-- Opens the file that a path names. -/
def ofPath (overflow : Overflow) (disk : Disk) (path : Path) :
    Except Error (FileId × Reader) := do
  let id ← disk.openFile path .notMappable
  return (id, ← ofBytes overflow (disk.content id))

/-- The reader of a file that was written to since it was opened. What was taken from the file then
stays, and so does its length. -/
def refreshed (reader : Reader) (content : Bytes) : Reader :=
  { reader with bytes := content.take reader.bytes.length }

/-- The entry of a step. -/
def entry (reader : Reader) (step : UInt32) : Except Error StepEntry :=
  match reader.entries[step.toNat]? with
  | some entry => .ok entry
  | none => .error (.stepOutOfRange step.toNat reader.header.stepCount.toNat)

/-- The records of a step. -/
def stepRange (overflow : Overflow) (reader : Reader) (step : UInt32) :
    Except Error (UInt64 × UInt64) := do
  let entry ← reader.entry step
  entry.recordRange overflow

/-- Whether a chunk belongs to an entry of the table. -/
def agrees (step : UInt32) (entry : StepEntry) (chunk : ChunkHeader) : Bool :=
  chunk.step = step ∧ chunk.recordStart = entry.recordStart ∧ chunk.count = entry.count

/-- The values of each field in the chunk of an entry. -/
def readEntry (reader : Reader) (step : UInt32) (entry : StepEntry) :
    Except Error (List FieldData) :=
  if ¬entry.written then .ok (reader.manifest.fields.map fun field => .empty field.dtype)
  else do
    let chunk ← reader.bytes.region entry.chunkOffset entry.chunkLength "chunk"
    let (header, fields) ← Chunk.decode reader.manifest chunk
    if agrees step entry header then return fields
    else throw (.corrupt (.entryMismatch step.toNat))

/-- The entry of a step, and the values of each field; none for a step that is not written. -/
def readStep (reader : Reader) (step : UInt32) : Except Error (StepEntry × List FieldData) := do
  let entry ← reader.entry step
  return (entry, ← reader.readEntry step entry)

/-- The steps that are written, with their entries, in the order of their records. -/
def writtenSteps (reader : Reader) : List (Nat × StepEntry) :=
  (reader.entries.zipIdx.map Prod.swap |>.filter fun item => item.2.written).mergeSort
    fun a b => a.2.recordStart ≤ b.2.recordStart

/-- All values of a field in the order of the records. -/
def readField (reader : Reader) (name : String) : Except Error FieldData :=
  match reader.manifest.position? name, reader.manifest.get? name with
  | some position, some field =>
    reader.writtenSteps.foldlM (fun data (step, entry) => do
      let fields ← reader.readEntry (UInt32.ofNat step) entry
      data.append (fields.getD position (.empty field.dtype))) (.empty field.dtype)
  | _, _ => .error (.unknownField name)

/-- Checks that each step starts where the one before it ended, from a given record on: the record
after the last one. -/
def checkTiling (overflow : Overflow) (start : UInt64) : List StepEntry → Except Error UInt64
  | [] => .ok start
  | entry :: rest =>
    if entry.recordStart ≠ start then
      .error (.corrupt (.recordGap start.toNat entry.recordStart.toNat))
    else do
      let range ← entry.recordRange overflow
      checkTiling overflow range.2 rest

/-- Checks that the steps cover the record axis and that every chunk can be read. -/
def verify (overflow : Overflow) (reader : Reader) : Except Error Unit := do
  let covered ← checkTiling overflow 0 (reader.writtenSteps.map Prod.snd)
  if covered ≠ reader.header.recordLength then
    throw (.corrupt (.rowCount reader.header.recordLength.toNat covered.toNat))
  (List.range reader.header.stepCount.toNat).forM fun step => do
    let _ ← reader.readStep (UInt32.ofNat step)

/-- The moments of the steps; none for a step that is not written. -/
def timestamps (reader : Reader) : Except Error (List (Option Timestamp)) := do
  let origin ← reader.schema.timeOrigin
  reader.entries.mapM fun entry =>
    if ¬entry.written then .ok none
    else
      match origin.after? entry.time with
      | some time => .ok (some time)
      | none => .error .beyondCalendar

/-- A global attribute. -/
def globalAttribute? (reader : Reader) (name : String) : Option AttributeValue :=
  reader.schema.globalAttributes.get? name

end Reader

end RaggedTrajectory
