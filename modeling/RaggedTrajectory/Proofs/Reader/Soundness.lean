import RaggedTrajectory.Proofs.Chunk.WellFormed
import RaggedTrajectory.Proofs.Reader.Coverage

/-!
# What a verified file gives

A file that can be opened and verified is consistent, whoever made it: its steps tile the record
axis, every step can be read, and so can every field. What is read of a field as a whole is what is
read of it step by step, put end to end in the order of the records, so the values of a record are
those that its step has for it.

* `Reader.hasValues_of_readEntry`: what a step that can be read has.
* `Reader.readField_eq_ok`: a field as a whole is its rows put end to end.
* `Reader.isConsistent_of_verify`: a verified file is consistent.
-/

namespace RaggedTrajectory

/-! ## Opened files -/

theorem StepTable.length_decode (count : Nat) (bytes : Bytes) :
    (StepTable.decode count bytes).length = count := by
  induction count generalizing bytes with
  | zero => rfl
  | succ count ih => rw [StepTable.decode, List.length_cons, ih]

namespace Reader

/-- A file that can be opened has an entry for each step of its axis, and fields with distinct
names. -/
theorem of_ofBytes {overflow : Overflow} {bytes : Bytes} {reader : Reader}
    (opened : ofBytes overflow bytes = .ok reader) :
    reader.entries.length = reader.header.stepCount.toNat ∧ reader.manifest.names.Nodup := by
  simp only [ofBytes, Error.bind_eq_ok_iff] at opened
  obtain ⟨header, -, block, -, schema, -, manifest, named, table, -, made⟩ := opened
  cases made
  exact ⟨StepTable.length_decode _ _, FileSchema.names_nodup_of_manifest named⟩

end Reader

/-! ## Steps -/

/-- The values of the fields for so many particles: each field has values of its type, one for each
place of each particle. -/
structure HasValues (manifest : Manifest) (count : Nat) (fields : List FieldData) : Prop where
  length : fields.length = manifest.length
  column : ∀ (index : Nat) (field : Field), manifest.fields[index]? = some field →
    ∃ values : Array field.dtype.Element,
      fields[index]? = some ⟨field.dtype, values⟩ ∧ values.size = count * field.width

theorem Chunk.IsCutInto.hasValues {manifest : Manifest} {count : Nat} {raw : Bytes}
    {fields : List FieldData} (cut : IsCutInto count manifest.fields raw fields) :
    HasValues manifest count fields := by
  refine ⟨cut.length, fun index field found => ?_⟩
  obtain ⟨⟨_, values⟩, own, -, -, rfl, places⟩ := cut.column index field found
  exact ⟨values, own, places⟩

namespace Reader

/-- What is read of an entry are values for the records of its step. -/
theorem hasValues_of_readEntry {reader : Reader} {step : UInt32} {entry : StepEntry}
    {fields : List FieldData} (counted : entry.written = true → 0 ≤ entry.particleCount.toInt)
    (read : reader.readEntry step entry = .ok fields) :
    HasValues reader.manifest entry.recordCount fields := by
  by_cases written : entry.written = true
  · -- The header of the chunk has the number of particles of the entry.
    obtain ⟨chunk, header, -, decoded, -, -, count⟩ := (readEntry_eq_ok_iff written).1 read
    obtain ⟨raw, -, -, cut⟩ := Chunk.isCutInto_of_decode decoded
    rw [count, StepEntry.toNat_count written (counted written)] at cut
    exact cut.hasValues
  · rw [readEntry, if_pos written] at read
    cases read
    have none : entry.recordCount = 0 := if_neg written
    refine ⟨List.length_map _, fun index field found => ⟨#[], ?_, ?_⟩⟩
    · rw [List.getElem?_map, found]
      rfl
    · rw [none, Nat.zero_mul]
      rfl

/-! ## Fields -/

/-- The values of a field in a step of the table; none where the step cannot be read. -/
def row (reader : Reader) (index : Nat) (field : Field) (item : Nat × StepEntry) :
    List field.dtype.Element :=
  match reader.readEntry (UInt32.ofNat item.1) item.2 with
  | .error _ => []
  | .ok fields =>
    match fields[index]? with
    | none => []
    | some data => if same : data.dtype = field.dtype then (same ▸ data.values).toList else []

theorem row_eq {reader : Reader} {index : Nat} {field : Field} {item : Nat × StepEntry}
    {fields : List FieldData} {values : Array field.dtype.Element}
    (read : reader.readEntry (UInt32.ofNat item.1) item.2 = .ok fields)
    (own : fields[index]? = some ⟨field.dtype, values⟩) :
    reader.row index field item = values.toList := by
  simp [row, read, own]

/-- Rows of a field are appended one after the other. -/
theorem foldlM_append {reader : Reader} {index : Nat} {field : Field}
    (found : reader.manifest.fields[index]? = some field) {items : List (Nat × StepEntry)}
    (readable : ∀ item ∈ items, ∃ fields,
      reader.readEntry (UInt32.ofNat item.1) item.2 = .ok fields ∧
        HasValues reader.manifest item.2.recordCount fields)
    (start : Array field.dtype.Element) :
    items.foldlM (fun (data : FieldData) (step, entry) => do
        let fields ← reader.readEntry (UInt32.ofNat step) entry
        data.append (fields.getD index (.empty field.dtype))) ⟨field.dtype, start⟩ =
      (.ok ⟨field.dtype, start ++ (items.map (reader.row index field)).flatten.toArray⟩ :
        Except Error FieldData) := by
  induction items generalizing start with
  | nil => simp [pure, Except.pure]
  | cons item items ih =>
    obtain ⟨⟨fields, read, all⟩, others⟩ := List.forall_mem_cons.1 readable
    obtain ⟨values, own, -⟩ := all.column index field found
    -- The values are of the type of the field, so they can be appended.
    have same : fields.getD index (.empty field.dtype) = ⟨field.dtype, values⟩ := by
      rw [List.getD_eq_getElem?_getD, own]
      rfl
    have appended : FieldData.append ⟨field.dtype, start⟩ ⟨field.dtype, values⟩ =
      .ok ⟨field.dtype, start ++ values⟩ := dif_pos rfl
    rw [List.foldlM_cons, List.map_cons, List.flatten_cons, row_eq read own]
    simp only [read, Error.ok_bind, same, appended]
    rw [ih others, Array.append_assoc, ← List.append_toArray, Array.toArray_toList]

/-- A row has a value for each place of each record. -/
theorem length_row {reader : Reader} {index : Nat} {field : Field}
    (found : reader.manifest.fields[index]? = some field) {item : Nat × StepEntry}
    (readable : ∃ fields, reader.readEntry (UInt32.ofNat item.1) item.2 = .ok fields ∧
      HasValues reader.manifest item.2.recordCount fields) :
    (reader.row index field item).length = item.2.recordCount * field.width := by
  obtain ⟨fields, read, all⟩ := readable
  obtain ⟨values, own, places⟩ := all.column index field found
  rw [row_eq read own, Array.length_toList, places]

section Rows

variable {reader : Reader} {index : Nat} {field : Field}
  (found : reader.manifest.fields[index]? = some field)
  (readable : ∀ item ∈ reader.writtenSteps, ∃ fields,
    reader.readEntry (UInt32.ofNat item.1) item.2 = .ok fields ∧
      HasValues reader.manifest item.2.recordCount fields)

include found readable

/-- The rows of a field are as long as the numbers of records say. -/
theorem map_length_row :
    (reader.writtenSteps.map (reader.row index field)).map List.length =
      reader.recordCounts.map (· * field.width) := by
  rw [List.map_map, recordCounts, List.map_map]
  exact List.map_congr_left fun item mem => length_row found (readable item mem)

/-- A field as a whole is its rows put end to end, in the order of their records. -/
theorem readField_eq_ok (distinct : reader.manifest.names.Nodup) :
    reader.readField field.name =
      .ok ⟨field.dtype, (reader.writtenSteps.map (reader.row index field)).flatten.toArray⟩ := by
  obtain ⟨position, own⟩ := Manifest.find_of_nodup distinct found
  have appended := foldlM_append found readable #[]
  rw [Array.empty_append] at appended
  unfold readField
  rw [position, own]
  exact appended

/-- The values of a record are those of its step, at its place in the step. -/
theorem getElem?_flatten_row (covers : reader.Covers) {step : UInt32} {entry : StepEntry}
    {record place : Nat} (owns : reader.Owns step entry record) (inside : place < field.width) :
    (reader.writtenSteps.map (reader.row index field)).flatten[record * field.width + place]? =
      (reader.row index field (step.toNat, entry))[
        (record - entry.recordStart.toNat) * field.width + place]? := by
  -- The row of the step stands where its segment does, counted in places in place of records.
  obtain ⟨segment, atSegment, -, start⟩ := exists_segment_of_owns covers owns
  obtain ⟨offset, rfl⟩ := Nat.exists_eq_add_of_le owns.2.1
  have before : offset < entry.recordCount := by
    have bound := owns.2.2
    omega
  have atRow : (reader.writtenSteps.map (reader.row index field))[segment]? =
      some (reader.row index field (step.toNat, entry)) := by
    rw [List.getElem?_map, atSegment]
    rfl
  have length : (reader.row index field (step.toNat, entry)).length =
      entry.recordCount * field.width :=
    length_row found (readable _ (List.mem_of_getElem? atSegment))
  -- The place is in the row, since the whole record is.
  have whole : (offset + 1) * field.width ≤ entry.recordCount * field.width :=
    Nat.mul_le_mul_right _ before
  rw [Nat.succ_mul] at whole
  have shifted := getElem?_flatten_segment atRow
    (show offset * field.width + place < _ by rw [length]; omega)
  rw [map_length_row found readable, segmentStart_map_mul, ← start] at shifted
  rw [Nat.add_sub_cancel_left, Nat.add_mul, Nat.add_assoc]
  exact shifted

end Rows

/-- If every step of the table can be read, what is read at a place is the entry there. -/
theorem exists_readStep_of_getElem? {reader : Reader}
    (size : reader.entries.length = reader.header.stepCount.toNat)
    (readable : ∀ step < reader.header.stepCount, ∃ result, reader.readStep step = .ok result)
    {place : Nat} {entry : StepEntry} (found : reader.entries[place]? = some entry) :
    ∃ values, reader.readStep (UInt32.ofNat place) = .ok (entry, values) := by
  have inside : place < reader.header.stepCount.toNat :=
    size ▸ (List.getElem?_eq_some_iff.1 found).1
  have word : (UInt32.ofNat place).toNat = place :=
    UInt32.toNat_ofNat_of_lt' (Nat.lt_trans inside reader.header.stepCount.toNat_lt)
  obtain ⟨⟨own, values⟩, read⟩ := readable (UInt32.ofNat place)
    (UInt32.lt_iff_toNat_lt.2 (word.symm ▸ inside))
  have same := entry_eq_ok_iff.1 (readStep_eq_ok_iff.1 read).1
  rw [word, found] at same
  cases same
  exact ⟨values, read⟩

/-- Every written step can be read, if every step of the table can. -/
theorem readable_of_mem {reader : Reader}
    (size : reader.entries.length = reader.header.stepCount.toNat)
    (counted : ∀ entry ∈ reader.entries, entry.written = true → 0 ≤ entry.particleCount.toInt)
    (readable : ∀ step < reader.header.stepCount, ∃ result, reader.readStep step = .ok result)
    {item : Nat × StepEntry} (mem : item ∈ reader.writtenSteps) :
    ∃ fields, reader.readEntry (UInt32.ofNat item.1) item.2 = .ok fields ∧
      HasValues reader.manifest item.2.recordCount fields := by
  obtain ⟨found, -⟩ := mem_writtenSteps.1 mem
  obtain ⟨fields, read⟩ := exists_readStep_of_getElem? size readable found
  have values := (readStep_eq_ok_iff.1 read).2
  exact ⟨fields, values, hasValues_of_readEntry (counted _ (List.mem_of_getElem? found)) values⟩

/-! ## Verified files -/

/-- What a reader can rely on. Every record belongs to exactly one step, and the steps have no other
records. Every step can be read, and has values for its records. Every field can be read, and the
values of a record are those that its step has at its place. -/
structure IsConsistent (reader : Reader) : Prop where
  owner : ∀ record < reader.header.recordLength.toNat, ∃ step entry,
    reader.Owns step entry record ∧
      ∀ other otherEntry, reader.Owns other otherEntry record → other = step
  within : ∀ step entry record, reader.Owns step entry record →
    entry.written = true ∧ record < reader.header.recordLength.toNat
  total : sumOf (reader.entries.map StepEntry.recordCount) = reader.header.recordLength.toNat
  steps : ∀ step < reader.header.stepCount, ∃ entry fields,
    reader.readStep step = .ok (entry, fields) ∧
      HasValues reader.manifest entry.recordCount fields
  fields : ∀ (index : Nat) (field : Field), reader.manifest.fields[index]? = some field →
    ∃ values : Array field.dtype.Element,
      reader.readField field.name = .ok ⟨field.dtype, values⟩ ∧
      values.size = reader.header.recordLength.toNat * field.width ∧
      ∀ step entry record, reader.Owns step entry record →
        ∃ (fields : List FieldData) (own : Array field.dtype.Element),
          reader.readStep step = .ok (entry, fields) ∧
          fields[index]? = some ⟨field.dtype, own⟩ ∧
          ∀ place < field.width, values[record * field.width + place]? =
            own[(record - entry.recordStart.toNat) * field.width + place]?

/-- A file that can be opened and verified is consistent, if no number of particles of a written
step is negative. -/
theorem isConsistent_of_verify {overflow : Overflow} {bytes : Bytes} {reader : Reader}
    (opened : ofBytes overflow bytes = .ok reader) (verified : reader.verify overflow = .ok ())
    (counted : ∀ entry ∈ reader.entries, entry.written = true → 0 ≤ entry.particleCount.toInt) :
    reader.IsConsistent := by
  obtain ⟨size, distinct⟩ := of_ofBytes opened
  have covers := covers_of_verify size counted verified
  obtain ⟨-, readable⟩ := verify_eq_ok_iff.1 verified
  have rows : ∀ item ∈ reader.writtenSteps, ∃ fields,
      reader.readEntry (UInt32.ofNat item.1) item.2 = .ok fields ∧
        HasValues reader.manifest item.2.recordCount fields :=
    fun item mem => readable_of_mem size counted readable mem
  refine ⟨fun record inside => exists_owner covers size inside, fun step entry record owns => ?_,
    (sumOf_recordCounts reader).symm.trans covers.total, fun step inside => ?_,
    fun index field found => ?_⟩
  · obtain ⟨segment, place, -, -⟩ := exists_segment_of_owns covers owns
    obtain ⟨mem, written⟩ := mem_writtenSteps.1 (List.mem_of_getElem? place)
    exact ⟨written, Nat.lt_of_lt_of_le owns.2.2
      (recordStart_add_le covers (List.mem_of_getElem? mem) written)⟩
  · obtain ⟨⟨entry, fields⟩, read⟩ := readable step inside
    obtain ⟨own, values⟩ := readStep_eq_ok_iff.1 read
    have mem : entry ∈ reader.entries := List.mem_of_getElem? (entry_eq_ok_iff.1 own)
    exact ⟨entry, fields, read, hasValues_of_readEntry (counted entry mem) values⟩
  · refine ⟨_, readField_eq_ok found rows distinct, ?_, fun step entry record owns => ?_⟩
    · rw [List.size_toArray, length_flatten_eq_sumOf, map_length_row found rows, sumOf_map_mul,
        covers.total]
    · -- The step of the record is one of those whose rows were put end to end.
      obtain ⟨segment, place, -, -⟩ := exists_segment_of_owns covers owns
      obtain ⟨fields, read, all⟩ := rows _ (List.mem_of_getElem? place)
      obtain ⟨values, own, -⟩ := all.column index field found
      refine ⟨fields, values, readStep_eq_ok_iff.2 ⟨owns.1, ?_⟩, own, fun place inside => ?_⟩
      · rwa [UInt32.ofNat_toNat] at read
      · rw [List.getElem?_toArray, getElem?_flatten_row found rows covers owns inside,
          row_eq read own, Array.getElem?_toList]

end Reader

/-! ## A file whose second step was written first -/

namespace FallingRun

def flag : Field := { Field.standard "flag" .int8 [] with origin := .extended }

def schema : FileSchema := ⟨.empty, [], [.ofField flag]⟩

def record (step : UInt32) (start : UInt64) (values : Bytes) : StepRecord where
  step
  time := ⟨0⟩
  count := UInt64.ofNat values.length
  recordStart := start
  chunk := Chunk.ofPayload step start values.length values (.ofCodec .stored)

/-- Two particles in the second step, one in the first, and none in the third, which is not
written. -/
def image : FileImage := ⟨.classic, .stored, 3, schema.encode, [record 1 0 [1, 4], record 0 2 [2]]⟩

def reader : Reader := image.reader schema ⟨[flag]⟩

theorem ofBytes_image (overflow : Overflow) :
    Reader.ofBytes overflow image.bytes = .ok reader := by
  have within : ∀ record ∈ image.records, record.step < image.stepCount := by decide
  have room : image.bytes.length < 2 ^ 64 := by decide +kernel
  have exact : schema.IsExact := by
    refine ⟨Attributes.areExact_empty, fun declared mem => ?_⟩
    cases List.mem_singleton.1 mem
    exact Attributes.areExact_empty
  exact FileImage.ofBytes_bytes overflow within room (FileSchema.decode_encode exact) rfl

theorem verify_reader (overflow : Overflow) : reader.verify overflow = .ok () := by
  refine Reader.verify_eq_ok_iff.2 ⟨?_, fun step inside => ?_⟩
  · -- The entries are sorted by their first records, so the second step comes first.
    have pair : ∀ (a b : Nat × StepEntry) (le : Nat × StepEntry → Nat × StepEntry → Bool),
        [a, b].mergeSort le = if le a b then [a, b] else [b, a] := by
      intro a b le
      simp [List.mergeSort, List.MergeSort.Internal.splitInTwo, List.merge]
    have occupied : StepTable.occupied reader.entries =
        [(0, image.entry 0), (1, image.entry 1)] := by decide +kernel
    rw [Reader.writtenSteps_eq, occupied, pair, if_neg (by decide +kernel)]
    cases overflow <;> rfl
  · have each : ∀ i < 3, (reader.readStep (UInt32.ofNat i)).isOk = true := by decide +kernel
    have own := each step.toNat (UInt32.lt_iff_toNat_lt.1 inside)
    rw [UInt32.ofNat_toNat] at own
    cases read : reader.readStep step with
    | error e => rw [read] at own; cases own
    | ok result => exact ⟨result, rfl⟩

end FallingRun

/-- The file is consistent, though its steps are not in the order of its records. -/
theorem Reader.isConsistent_of_verify_fallingRun :
    Reader.ofBytes .stops FallingRun.image.bytes = .ok FallingRun.reader ∧
      FallingRun.reader.verify .stops = .ok () ∧ FallingRun.reader.IsConsistent := by
  have counted : ∀ entry ∈ FallingRun.reader.entries, entry.written = true →
      0 ≤ entry.particleCount.toInt := by decide +kernel
  have opened := FallingRun.ofBytes_image .stops
  have verified := FallingRun.verify_reader .stops
  exact ⟨opened, verified, Reader.isConsistent_of_verify opened verified counted⟩

end RaggedTrajectory
