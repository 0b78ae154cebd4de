import RaggedTrajectory.Header

/-!
# The table of time steps

Behind the schema block there is one entry for every step of the time axis. Until a step is
written, its time and its number of particles are the fill values of their types.
-/

namespace RaggedTrajectory

/-- The entry of a step. -/
structure StepEntry where
  /-- Seconds since the origin of time. -/
  time : Binary64
  particleCount : Int32
  written : Bool
  /-- The first record of the step. -/
  recordStart : UInt64
  chunkOffset : UInt64
  chunkLength : UInt64
  deriving DecidableEq, Repr

namespace StepEntry

/-- The entry of a step that is not written. -/
def unwritten : StepEntry where
  time := DataType.fill .float64
  particleCount := DataType.fill .int32
  written := false
  recordStart := 0
  chunkOffset := 0
  chunkLength := 0

/-- The number of particles as a word: a negative number counts from the end of the range. -/
def count (entry : StepEntry) : UInt64 := entry.particleCount.toInt64.toUInt64

/-- The first record of a step and the one after its last; of a step that is not written, none. -/
def recordRange (overflow : Overflow) (entry : StepEntry) : Except Error (UInt64 × UInt64) :=
  if entry.written then do return (entry.recordStart, ← overflow.add entry.recordStart entry.count)
  else .ok (0, 0)

/-- The bytes of an entry. -/
def encode (entry : StepEntry) : Bytes :=
  LittleEndian.encode 8 entry.time.bits.toNat ++
  (LittleEndian.encode 4 entry.particleCount.toUInt32.toNat ++
  (LittleEndian.encode 4 (if entry.written then 1 else 0) ++
  (LittleEndian.encode 8 entry.recordStart.toNat ++
  (LittleEndian.encode 8 entry.chunkOffset.toNat ++
  LittleEndian.encode 8 entry.chunkLength.toNat))))

/-- Reads the words of an entry. -/
def readWords : StateM Bytes StepEntry := do
  let time ← LittleEndian.word 8
  let particleCount ← LittleEndian.word 4
  let written ← LittleEndian.word 4
  let recordStart ← LittleEndian.word 8
  let chunkOffset ← LittleEndian.word 8
  let chunkLength ← LittleEndian.word 8
  return {
    time := ⟨UInt64.ofNat time⟩
    particleCount := (UInt32.ofNat particleCount).toInt32
    written := written ≠ 0
    recordStart := UInt64.ofNat recordStart
    chunkOffset := UInt64.ofNat chunkOffset
    chunkLength := UInt64.ofNat chunkLength }

/-- The entry at the start of a byte string. -/
def decode (bytes : Bytes) : Except Error StepEntry :=
  if bytes.length < Header.entrySize then .error (.corrupt .truncatedTable)
  else .ok (readWords bytes).1

@[simp]
theorem length_encode (entry : StepEntry) : entry.encode.length = Header.entrySize := by
  simp [encode, Header.entrySize]

end StepEntry

namespace StepTable

/-- The bytes of a table without written steps. -/
def encodeUnwritten (stepCount : Nat) : Bytes :=
  (List.replicate stepCount StepEntry.unwritten.encode).flatten

/-- The entries of a table of `count` steps. -/
def decode : (count : Nat) → Bytes → List StepEntry
  | 0, _ => []
  | count + 1, bytes =>
    (StepEntry.readWords bytes).1 :: decode count (bytes.drop Header.entrySize)

end StepTable

end RaggedTrajectory
