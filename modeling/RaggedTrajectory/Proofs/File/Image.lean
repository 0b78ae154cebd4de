import RaggedTrajectory.Proofs.Records
import RaggedTrajectory.TrajectoryFile

/-!
# What a file holds

The image of a file is what was put into it: the schema block it was made with and the steps that
were appended, in their order. It fixes every byte: the header with its counters, the block, the
table with the last append of every step, and the chunks one behind the other.

* `StepRecord.lastOf?_concat`: the last append of a step, after one more append.
* `FileImage.table_append`: one more append changes one entry of the table.
* `FileImage.toNat_entryOffset`: where the entry of a step is, as long as offsets do not wrap.
-/

namespace RaggedTrajectory

/-! ## Rows of steps -/

/-- One more than the largest of steps; of no steps, zero. -/
def spanOf (steps : List UInt32) : Nat :=
  steps.foldl (fun most step => max most (step.toNat + 1)) 0

theorem spanOf_le {steps : List UInt32} {bound : Nat}
    (inside : ∀ step ∈ steps, step.toNat < bound) :
    spanOf steps ≤ bound := by
  -- The accumulator starts at zero, but the induction needs it at any value up to the bound.
  suffices keeps : ∀ most ≤ bound,
      steps.foldl (fun most step => max most (step.toNat + 1)) most ≤ bound from
    keeps 0 (Nat.zero_le _)
  induction steps with
  | nil => exact fun most small => small
  | cons step steps ih =>
    intro most small
    obtain ⟨first, others⟩ := List.forall_mem_cons.1 inside
    exact ih others _ (Nat.max_le.2 ⟨small, first⟩)

/-! ## The last append of a step -/

namespace StepRecord

/-- The last of the records of a step, with the records before it. -/
def lastOf? (step : UInt32) : List StepRecord → Option (List StepRecord × StepRecord)
  | [] => none
  | record :: records =>
    match lastOf? step records with
    | some (before, last) => some (record :: before, last)
    | none => if record.step = step then some ([], record) else none

theorem lastOf?_concat (step : UInt32) (records : List StepRecord) (record : StepRecord) :
    lastOf? step (records ++ [record]) =
      if record.step = step then some (records, record) else lastOf? step records := by
  induction records with
  | nil => rfl
  | cons first records ih =>
    -- The search goes to the end of the row first, so the new record is met before the others.
    rw [List.cons_append, lastOf?, ih]
    by_cases same : record.step = step
    · rw [if_pos same, if_pos same]
    · rw [if_neg same, if_neg same]
      rfl

/-- A step that was never appended has no last record. -/
theorem lastOf?_eq_none {step : UInt32} {records : List StepRecord}
    (absent : ∀ record ∈ records, record.step ≠ step) : lastOf? step records = none := by
  induction records with
  | nil => rfl
  | cons record records ih =>
    obtain ⟨first, others⟩ := List.forall_mem_cons.1 absent
    rw [lastOf?, ih others]
    exact if_neg first

/-- A record behind which its step does not come again is the last of its step. -/
theorem lastOf?_append_cons (before : List StepRecord) {record : StepRecord}
    {after : List StepRecord} (last : ∀ later ∈ after, later.step ≠ record.step) :
    lastOf? record.step (before ++ record :: after) = some (before, record) := by
  induction before with
  | nil =>
    rw [List.nil_append, lastOf?, lastOf?_eq_none last]
    exact if_pos rfl
  | cons first before ih => rw [List.cons_append, lastOf?, ih]

theorem toNat_max (first second : UInt32) :
    (max first second).toNat = max first.toNat second.toNat := by
  show (if first ≤ second then second else first).toNat =
    if first.toNat ≤ second.toNat then second.toNat else first.toNat
  simp only [UInt32.le_iff_toNat_le]
  split <;> rfl

/-- The step after one that has a step above it. -/
theorem toNat_add_one {step bound : UInt32} (inside : step < bound) :
    (step + 1).toNat = step.toNat + 1 := by
  have below := UInt32.lt_iff_toNat_lt.1 inside
  have word := bound.toNat_lt
  rw [UInt32.toNat_add]
  exact Nat.mod_eq_of_lt (by show step.toNat + 1 < 2 ^ 32; omega)

/-- The table entry of a record whose chunk is at an offset. -/
def entryAt (record : StepRecord) (offset : Nat) : StepEntry where
  time := record.time
  particleCount := record.count.toUInt32.toInt32
  written := true
  recordStart := record.recordStart
  chunkOffset := UInt64.ofNat offset
  chunkLength := UInt64.ofNat record.chunk.length

/-- The chunks of records one behind the other. -/
def chunks (records : List StepRecord) : Bytes := records.flatMap StepRecord.chunk

@[simp]
theorem chunks_nil : chunks [] = [] := rfl

@[simp]
theorem chunks_append (first second : List StepRecord) :
    chunks (first ++ second) = chunks first ++ chunks second := List.flatMap_append

@[simp]
theorem chunks_cons (record : StepRecord) (records : List StepRecord) :
    chunks (record :: records) = record.chunk ++ chunks records := List.flatMap_cons

end StepRecord

/-! ## Images -/

/-- What was put into a file. -/
structure FileImage where
  format : FileFormat
  codec : Codec
  stepCount : UInt32
  /-- The schema block. -/
  block : Bytes
  /-- The steps that were appended, in their order. -/
  records : List StepRecord

namespace FileImage

/-- The image after one more append. -/
def append (image : FileImage) (record : StepRecord) : FileImage :=
  { image with records := image.records ++ [record] }

/-- The header that the file was made with. -/
def created (image : FileImage) : Header :=
  Header.create image.format image.codec image.stepCount (UInt64.ofNat image.block.length)

/-- The header with the counters of the appended steps. -/
def header (image : FileImage) : Header :=
  { image.created with
    recordLength := image.records.foldl (fun _ record => record.recordStart + record.count) 0
    stepsWritten := image.records.foldl (fun most record => max most (record.step + 1)) 0 }

/-- The offset of the table. -/
def tableOffset (image : FileImage) : Nat := Header.size + image.block.length

/-- The offset of the first chunk. -/
def dataOffset (image : FileImage) : Nat :=
  image.tableOffset + image.stepCount.toNat * Header.entrySize

/-- The entry of a step: that of its last append. -/
def entry (image : FileImage) (step : UInt32) : StepEntry :=
  match StepRecord.lastOf? step image.records with
  | none => .unwritten
  | some (before, last) => last.entryAt (image.dataOffset + (StepRecord.chunks before).length)

/-- The entries of all steps. -/
def table (image : FileImage) : List StepEntry :=
  (List.range image.stepCount.toNat).map fun step => image.entry (UInt32.ofNat step)

/-- The bytes of the table. -/
def tableBytes (image : FileImage) : Bytes := image.table.flatMap StepEntry.encode

/-- The bytes of the file. -/
def bytes (image : FileImage) : Bytes :=
  image.header.encode ++ (image.block ++ (image.tableBytes ++ StepRecord.chunks image.records))

/-- Whether every appended step is on the time axis. -/
def IsWithinAxis (image : FileImage) : Prop :=
  ∀ record ∈ image.records, record.step < image.stepCount

/-! ### Lengths -/

@[simp]
theorem length_table (image : FileImage) : image.table.length = image.stepCount.toNat := by
  simp [table]

/-- Every entry of a table has the same size. -/
theorem length_flatMap_encode (entries : List StepEntry) :
    (entries.flatMap StepEntry.encode).length = entries.length * Header.entrySize := by
  induction entries with
  | nil => simp
  | cons entry entries ih =>
    rw [List.flatMap_cons, List.length_append, ih, StepEntry.length_encode, List.length_cons,
      Nat.succ_mul, Nat.add_comm]

@[simp]
theorem length_tableBytes (image : FileImage) :
    image.tableBytes.length = image.stepCount.toNat * Header.entrySize := by
  rw [tableBytes, length_flatMap_encode, length_table]

/-- The chunks start where the table ends. -/
theorem length_bytes (image : FileImage) :
    image.bytes.length = image.dataOffset + (StepRecord.chunks image.records).length := by
  simp only [bytes, List.length_append, Header.length_encode, length_tableBytes, dataOffset,
    tableOffset]
  omega

@[simp]
theorem dataOffset_append (image : FileImage) (record : StepRecord) :
    (image.append record).dataOffset = image.dataOffset := rfl

theorem chunks_append (image : FileImage) (record : StepRecord) :
    StepRecord.chunks (image.append record).records =
      StepRecord.chunks image.records ++ record.chunk := by
  simp [append]

theorem length_bytes_append (image : FileImage) (record : StepRecord) :
    (image.append record).bytes.length = image.bytes.length + record.chunk.length := by
  rw [length_bytes, length_bytes, dataOffset_append, chunks_append, List.length_append,
    Nat.add_assoc]

/-- The place of a step in the table. -/
theorem toNat_lt_length_table {image : FileImage} {step : UInt32}
    (inside : step < image.stepCount) : step.toNat < image.table.length := by
  rw [length_table]
  exact UInt32.lt_iff_toNat_lt.1 inside

/-- What is no longer than an entry fits into the table at the place of a step. -/
theorem slot_le_length_tableBytes {image : FileImage} {step : UInt32}
    (inside : step < image.stepCount) {part : Bytes} (short : part.length ≤ Header.entrySize) :
    step.toNat * Header.entrySize + part.length ≤ image.tableBytes.length := by
  have next : (step.toNat + 1) * Header.entrySize ≤ image.stepCount.toNat * Header.entrySize :=
    Nat.mul_le_mul_right _ (UInt32.lt_iff_toNat_lt.1 inside)
  rw [Nat.succ_mul] at next
  rw [length_tableBytes]
  omega

/-! ### Offsets in the header -/

theorem toNat_schemaLength {image : FileImage} (room : image.bytes.length < 2 ^ 64) :
    image.header.schemaLength.toNat = image.block.length := by
  have split := image.length_bytes
  refine UInt64.toNat_ofNat_of_lt' ?_
  show image.block.length < 2 ^ 64
  unfold dataOffset tableOffset at split
  omega

theorem toNat_tableOffset {image : FileImage} (room : image.bytes.length < 2 ^ 64) :
    image.header.tableOffset.toNat = image.tableOffset := by
  have split := image.length_bytes
  show (UInt64.ofNat Header.size + UInt64.ofNat image.block.length).toNat = _
  rw [← UInt64.ofNat_add, UInt64.toNat_ofNat_of_lt']
  · rfl
  · show Header.size + image.block.length < 2 ^ 64
    unfold dataOffset tableOffset at split
    omega

/-- The entries of the table are where the header says, in words that do not wrap. -/
theorem toNat_entryOffset {image : FileImage} (room : image.bytes.length < 2 ^ 64) {step : UInt32}
    (inside : step ≤ image.stepCount) :
    (image.header.entryOffset step).toNat = image.tableOffset + step.toNat * Header.entrySize := by
  have split := image.length_bytes
  have table := toNat_tableOffset room
  have order : step.toNat * Header.entrySize ≤ image.stepCount.toNat * Header.entrySize :=
    Nat.mul_le_mul_right _ (UInt32.le_iff_toNat_le.1 inside)
  have wide : step.toUInt64 * UInt64.ofNat Header.entrySize =
      UInt64.ofNat (step.toNat * Header.entrySize) := by
    rw [UInt64.ofNat_mul, UInt64.ofNat_uInt32ToNat]
  -- The table ends before the file does, so neither the product nor the sum wraps.
  unfold dataOffset at split
  rw [Header.entryOffset, UInt64.toNat_add, table, wide, UInt64.toNat_ofNat_of_lt',
    Nat.mod_eq_of_lt]
  · omega
  · show step.toNat * Header.entrySize < 2 ^ 64
    omega

/-- No entry is behind the end of the file. -/
theorem toNat_entryOffset_le {image : FileImage} (room : image.bytes.length < 2 ^ 64)
    {step : UInt32} (inside : step ≤ image.stepCount) :
    (image.header.entryOffset step).toNat ≤ image.bytes.length := by
  have order : step.toNat * Header.entrySize ≤ image.stepCount.toNat * Header.entrySize :=
    Nat.mul_le_mul_right _ (UInt32.le_iff_toNat_le.1 inside)
  rw [toNat_entryOffset room inside, length_bytes, dataOffset]
  omega

theorem toNat_dataOffset {image : FileImage} (room : image.bytes.length < 2 ^ 64) :
    image.header.dataOffset.toNat = image.dataOffset :=
  toNat_entryOffset room (UInt32.le_refl image.stepCount)

/-! ### Entries and chunks -/

/-- The table has the entry of every step of the time axis. -/
theorem getElem?_table (image : FileImage) {step : UInt32} (inside : step < image.stepCount) :
    image.table[step.toNat]? = some (image.entry step) := by
  have bound : step.toNat < image.stepCount.toNat := UInt32.lt_iff_toNat_lt.1 inside
  rw [table, List.getElem?_map, List.getElem?_range bound, Option.map_some, UInt32.ofNat_toNat]

/-- A step that was never appended is unwritten. -/
theorem entry_eq_unwritten {image : FileImage} {step : UInt32}
    (absent : ∀ record ∈ image.records, record.step ≠ step) : image.entry step = .unwritten := by
  rw [entry, StepRecord.lastOf?_eq_none absent]

section LastRecord

variable {image : FileImage} {before after : List StepRecord} {record : StepRecord}

/-- The entry of a step leads to the chunk of its last append. -/
theorem entry_eq_entryAt (records : image.records = before ++ record :: after)
    (last : ∀ later ∈ after, later.step ≠ record.step) :
    image.entry record.step =
      record.entryAt (image.dataOffset + (StepRecord.chunks before).length) := by
  rw [entry, records, StepRecord.lastOf?_append_cons before last]

/-- A chunk ends before the file does. -/
theorem chunk_le_length (records : image.records = before ++ record :: after) :
    image.dataOffset + (StepRecord.chunks before).length + record.chunk.length ≤
      image.bytes.length := by
  rw [length_bytes, records, StepRecord.chunks_append, StepRecord.chunks_cons, List.length_append,
    List.length_append]
  omega

/-- The words of the entry of a step say where the chunk of its last append is. -/
theorem toNat_entry (records : image.records = before ++ record :: after)
    (last : ∀ later ∈ after, later.step ≠ record.step) (room : image.bytes.length < 2 ^ 64) :
    (image.entry record.step).chunkOffset.toNat =
        image.dataOffset + (StepRecord.chunks before).length ∧
      (image.entry record.step).chunkLength.toNat = record.chunk.length := by
  have fits := chunk_le_length records
  rw [entry_eq_entryAt records last]
  refine ⟨UInt64.toNat_ofNat_of_lt' ?_, UInt64.toNat_ofNat_of_lt' ?_⟩
  · show _ < 2 ^ 64
    omega
  · show _ < 2 ^ 64
    omega

/-- The bytes before the first chunk. -/
theorem length_front (image : FileImage) :
    (image.header.encode ++ (image.block ++ image.tableBytes)).length = image.dataOffset := by
  simp only [List.length_append, Header.length_encode, length_tableBytes, dataOffset, tableOffset]
  omega

/-- A chunk is found behind the chunks of the records before it. -/
theorem slice_chunk (records : image.records = before ++ record :: after) :
    image.bytes.slice (image.dataOffset + (StepRecord.chunks before).length) record.chunk.length =
      record.chunk := by
  have split : image.bytes = (image.header.encode ++ (image.block ++ image.tableBytes) ++
      StepRecord.chunks before) ++ (record.chunk ++ StepRecord.chunks after) := by
    rw [bytes, records, StepRecord.chunks_append, StepRecord.chunks_cons]
    simp only [List.append_assoc]
  have front := image.length_front
  rw [split, ← front, ← List.length_append, Bytes.slice_append_right _ _ _ (Nat.le_refl _),
    Nat.sub_self, Bytes.slice_append_left _ _ (Nat.le_of_eq (Nat.zero_add _)),
    Bytes.slice_zero_length]

end LastRecord

/-! ### One more append -/

/-- An image with records is that of the records but the last, after one more append. -/
theorem exists_append_eq {image : FileImage} {before : List StepRecord} {record : StepRecord}
    (records : image.records = before ++ [record]) :
    ∃ earlier : FileImage, earlier.records = before ∧ earlier.append record = image := by
  refine ⟨{ image with records := before }, rfl, ?_⟩
  rw [append, ← records]

theorem entry_append (image : FileImage) (record : StepRecord) (step : UInt32) :
    (image.append record).entry step =
      if record.step = step then record.entryAt image.bytes.length else image.entry step := by
  unfold entry
  rw [append, StepRecord.lastOf?_concat]
  by_cases same : record.step = step
  · rw [if_pos same, if_pos same, length_bytes]
    rfl
  · rw [if_neg same, if_neg same]
    rfl

/-- One more append puts its entry in the place of its step. -/
theorem table_append (image : FileImage) (record : StepRecord) :
    (image.append record).table =
      image.table.set record.step.toNat (record.entryAt image.bytes.length) := by
  apply List.ext_getElem
  · rw [List.length_set, length_table, length_table]
    rfl
  · intro i left right
    have bound : i < image.stepCount.toNat := by
      rw [length_table] at left
      exact left
    -- Places in the table and steps are the same thing, as there are fewer than `2 ^ 32`.
    have small : i < 2 ^ 32 := Nat.lt_trans bound image.stepCount.toNat_lt
    have same : record.step = UInt32.ofNat i ↔ record.step.toNat = i := by
      rw [← UInt32.toNat_inj, UInt32.toNat_ofNat_of_lt' small]
    simp only [table, List.getElem_map, List.getElem_range, List.getElem_set, entry_append, same]

theorem isWithinAxis_append {image : FileImage} {record : StepRecord} (within : image.IsWithinAxis)
    (inside : record.step < image.stepCount) : (image.append record).IsWithinAxis := by
  intro other mem
  rcases List.mem_append.1 mem with mem | mem
  · exact within other mem
  · obtain rfl := List.mem_singleton.1 mem
    exact inside

theorem header_append (image : FileImage) (record : StepRecord) :
    (image.append record).header =
      { image.header with
        recordLength := record.recordStart + record.count
        stepsWritten := max image.header.stepsWritten (record.step + 1) } := by
  simp only [header, append, List.foldl_append, List.foldl_cons, List.foldl_nil]
  rfl

/-! ### The counter of steps -/

/-- The counter of steps is one more than the largest step that was appended. -/
theorem toNat_stepsWritten {image : FileImage} (within : image.IsWithinAxis) :
    image.header.stepsWritten.toNat = spanOf (image.records.map StepRecord.step) := by
  -- In words as in numbers: a step on the axis has a step after it that does not wrap.
  suffices keeps : ∀ (records : List StepRecord) (most : UInt32),
      (∀ record ∈ records, record.step < image.stepCount) →
      (records.foldl (fun most record => max most (record.step + 1)) most).toNat =
        (records.map StepRecord.step).foldl (fun most step => max most (step.toNat + 1))
          most.toNat from
    keeps image.records 0 within
  intro records
  induction records with
  | nil => exact fun most _ => rfl
  | cons record records ih =>
    intro most inside
    obtain ⟨first, others⟩ := List.forall_mem_cons.1 inside
    rw [List.foldl_cons, ih _ others, StepRecord.toNat_max, StepRecord.toNat_add_one first]
    rfl

/-- The counter of steps never passes the length of the time axis. -/
theorem stepsWritten_le {image : FileImage} (within : image.IsWithinAxis) :
    image.header.stepsWritten ≤ image.stepCount := by
  rw [UInt32.le_iff_toNat_le, toNat_stepsWritten within]
  refine spanOf_le fun step mem => ?_
  obtain ⟨record, inside, rfl⟩ := List.mem_map.1 mem
  exact UInt32.lt_iff_toNat_lt.1 (within record inside)

/-- An append never takes the counter of steps back. -/
theorem stepsWritten_le_append (image : FileImage) (record : StepRecord) :
    image.header.stepsWritten ≤ (image.append record).header.stepsWritten := by
  rw [header_append, UInt32.le_iff_toNat_le, StepRecord.toNat_max]
  exact Nat.le_max_left _ _

end FileImage

end RaggedTrajectory
