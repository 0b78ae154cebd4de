import RaggedTrajectory.Proofs.Reader.Soundness

/-!
# Fields in the order of the calls

Steps can be written in any order, and a step that is written later has later records. A reader puts
the steps in the order of their first records again. A step without particles shares its first
record with the step written next, so for such steps that order can differ from the one in which
they were written; but they have no values, and among all others no two share a record.

* `FileImage.perm_occupied`: the written entries of a table are those of the appends.
* `Reader.filter_writtenSteps`: the steps with records are found in the order of the calls.
* `Reader.readField_of_hasCalls`: a field is what the calls recorded, put end to end.
* `Writer.readField_of_run`: the same for whole runs.
-/

namespace RaggedTrajectory

/-! ## Rows -/

/-- Of two different items of a row, one comes before the other. -/
theorem pair_sublist_or {α : Type} {items : List α} {a b : α} (first : a ∈ items)
    (second : b ∈ items) (apart : a ≠ b) : [a, b].Sublist items ∨ [b, a].Sublist items := by
  obtain ⟨front, back, rfl⟩ := List.append_of_mem first
  rcases List.mem_append.1 second with before | behind
  · exact .inr ((List.singleton_sublist.2 before).append
      (List.singleton_sublist.2 List.mem_cons_self))
  · have behind : b ∈ back := (List.mem_cons.1 behind).resolve_left (Ne.symm apart)
    refine .inl (List.Sublist.trans ?_ (List.sublist_append_right front (a :: back)))
    exact (List.singleton_sublist.2 behind).cons_cons a

/-- Where one item comes before another, the row can be split at both. -/
theorem exists_split_of_pair_sublist {α : Type} {items : List α} {a b : α}
    (order : [a, b].Sublist items) :
    ∃ before between after, items = before ++ a :: (between ++ b :: after) := by
  obtain ⟨front, back, rfl, first, second⟩ := List.cons_sublist_iff.1 order
  obtain ⟨before, between, rfl⟩ := List.append_of_mem first
  obtain ⟨others, after, rfl⟩ := List.append_of_mem (List.singleton_sublist.1 second)
  exact ⟨before, between ++ others, after, by simp only [List.append_assoc, List.cons_append]⟩

/-- Where keys are distinct, no later item has the key of an item. -/
theorem ne_of_nodup_map {α β : Type} {key : α → β} {items before after : List α} {item : α}
    (distinct : (items.map key).Nodup) (split : items = before ++ item :: after) :
    ∀ later ∈ after, key later ≠ key item := by
  rw [split, List.map_append, List.map_cons, List.nodup_append] at distinct
  obtain ⟨apart, -⟩ := List.nodup_cons.1 distinct.2.1
  exact fun later mem same => apart (same ▸ List.mem_map_of_mem mem)

/-- Items that contribute nothing can be left out. -/
theorem flatMap_filter {α β : Type} {items : List α} {part : α → List β} {keep : α → Bool}
    (empty : ∀ item ∈ items, keep item = false → part item = []) :
    (items.filter keep).flatMap part = items.flatMap part := by
  induction items with
  | nil => rfl
  | cons item items ih =>
    obtain ⟨first, others⟩ := List.forall_mem_cons.1 empty
    rw [List.filter_cons, List.flatMap_cons, ← ih others]
    split
    · rw [List.flatMap_cons]
    · next left => rw [first (Bool.not_eq_true _ ▸ left), List.nil_append]

/-! ## The written entries of a table -/

/-- The steps of a table rise. -/
theorem StepTable.pairwise_occupied (table : List StepEntry) :
    (occupied table).Pairwise fun a b => a.1 < b.1 := by
  have numbers : (table.zipIdx.map Prod.snd).Pairwise (· < ·) := by
    rw [List.zipIdx_map_snd]
    exact List.pairwise_lt_range'
  have rising : (table.zipIdx.map Prod.swap).Pairwise fun a b => a.1 < b.1 :=
    List.pairwise_map.2 (List.pairwise_map.1 numbers)
  exact rising.filter _

namespace FileImage

/-- The entry of an appended step is written. -/
theorem written_entry {image : FileImage}
    (distinct : (image.records.map StepRecord.step).Nodup) {record : StepRecord}
    (mem : record ∈ image.records) : (image.entry record.step).written = true := by
  obtain ⟨before, after, split⟩ := List.append_of_mem mem
  rw [entry_eq_entryAt split (ne_of_nodup_map distinct split)]
  rfl

/-- If no step was appended twice, the written entries are those of the appends. -/
theorem perm_occupied {image : FileImage} (within : image.IsWithinAxis)
    (distinct : (image.records.map StepRecord.step).Nodup) :
    (StepTable.occupied image.table).Perm
      ((image.records.map StepRecord.step).map fun step => (step.toNat, image.entry step)) := by
  have rising : (StepTable.occupied image.table).Nodup :=
    (StepTable.pairwise_occupied image.table).imp fun {a b} below same => by
      rw [same] at below
      exact Nat.lt_irrefl _ below
  have apart : ((image.records.map StepRecord.step).map
      fun step => (step.toNat, image.entry step)).Nodup :=
    List.pairwise_map.2 (distinct.imp fun {a b} other same =>
      other (UInt32.toNat_inj.1 (congrArg Prod.fst same)))
  refine (List.perm_ext_iff_of_nodup rising apart).2 fun item => ?_
  rw [StepTable.mem_occupied, List.map_map, List.mem_map]
  constructor
  · rintro ⟨found, written⟩
    have inside : item.1 < image.stepCount.toNat := by
      rw [← length_table]
      exact (List.getElem?_eq_some_iff.1 found).1
    have word : (UInt32.ofNat item.1).toNat = item.1 :=
      UInt32.toNat_ofNat_of_lt' (Nat.lt_trans inside image.stepCount.toNat_lt)
    have own : image.entry (UInt32.ofNat item.1) = item.2 := by
      have place := getElem?_table image (UInt32.lt_iff_toNat_lt.2 (word.symm ▸ inside))
      rw [word, found] at place
      exact (Option.some.inj place).symm
    -- A step that was never appended is unwritten.
    refine Classical.byContradiction fun none => ?_
    have absent : ∀ record ∈ image.records, record.step ≠ UInt32.ofNat item.1 := by
      intro record mem same
      refine none ⟨record, mem, ?_⟩
      rw [Function.comp_apply, same, word, own]
    rw [← own, entry_eq_unwritten absent] at written
    cases written
  · rintro ⟨record, mem, rfl⟩
    exact ⟨getElem?_table image (within record mem), written_entry distinct mem⟩

end FileImage

/-! ## Calls that a reader has -/

namespace Reader

/-- The step of a call with its entry in the table. -/
def item (reader : Reader) (call : WriteCall) : Nat × StepEntry :=
  (call.step.toNat, reader.entries.getD call.step.toNat .unwritten)

theorem item_of_readStep {reader : Reader} {call : WriteCall} {entry : StepEntry}
    {fields : List FieldData} (read : reader.readStep call.step = .ok (entry, fields)) :
    reader.item call = (call.step.toNat, entry) := by
  rw [item, List.getD_eq_getElem?_getD, entry_eq_ok_iff.1 (readStep_eq_ok_iff.1 read).1]
  rfl

/-- What a reader has of calls for distinct steps. The steps of the calls are the written ones, and
each is read as what its call recorded, from the record on where the calls before it end. -/
structure HasCalls (reader : Reader) (manifest : Manifest) (calls : List WriteCall) : Prop where
  distinct : (calls.map WriteCall.step).Nodup
  steps : (StepTable.occupied reader.entries).Perm (calls.map reader.item)
  values : ∀ call ∈ calls, reader.readStep call.step =
    .ok ((reader.item call).2, Chunk.recorded manifest call.snapshot)
  count : ∀ call ∈ calls, (reader.item call).2.particleCount.toInt = call.snapshot.count
  range : ∀ before call after, calls = before ++ call :: after →
    (reader.item call).2.extent.1.toNat = WriteCall.recordTotal before ∧
    (reader.item call).2.extent.2.toNat =
      WriteCall.recordTotal before + call.snapshot.count

/-- The order by first records can be sorted by. -/
theorem recordStart_trans (a b c : Nat × StepEntry)
    (first : decide (a.2.recordStart ≤ b.2.recordStart) = true)
    (second : decide (b.2.recordStart ≤ c.2.recordStart) = true) :
    decide (a.2.recordStart ≤ c.2.recordStart) = true := by
  rw [decide_eq_true_iff] at first second ⊢
  exact UInt64.le_trans first second

theorem recordStart_total (a b : Nat × StepEntry) :
    (decide (a.2.recordStart ≤ b.2.recordStart) || decide (b.2.recordStart ≤ a.2.recordStart)) =
      true := by
  rw [Bool.or_eq_true, decide_eq_true_iff, decide_eq_true_iff]
  exact UInt64.le_total _ _

/-- The written steps are in the order of their first records. -/
theorem pairwise_writtenSteps (reader : Reader) :
    reader.writtenSteps.Pairwise fun a b => a.2.recordStart.toNat ≤ b.2.recordStart.toNat := by
  rw [writtenSteps_eq]
  refine (List.pairwise_mergeSort recordStart_trans recordStart_total _).imp fun {a b} order => ?_
  exact UInt64.le_iff_toNat_le.1 (of_decide_eq_true order)

section HasCalls

variable {reader : Reader} {manifest : Manifest} {calls : List WriteCall}
  (has : reader.HasCalls manifest calls)

include has

theorem perm_writtenSteps : reader.writtenSteps.Perm (calls.map reader.item) :=
  (List.mergeSort_perm _ _).trans has.steps

theorem written_item {call : WriteCall} (mem : call ∈ calls) :
    (reader.item call).2.written = true :=
  (StepTable.mem_occupied.1 (has.steps.mem_iff.2 (List.mem_map_of_mem mem))).2

theorem recordCount_item {call : WriteCall} (mem : call ∈ calls) :
    (reader.item call).2.recordCount = call.snapshot.count := by
  rw [StepEntry.recordCount_of_written (written_item has mem), has.count call mem]
  rfl

theorem extent_fst {call : WriteCall} (mem : call ∈ calls) :
    (reader.item call).2.extent.1 = (reader.item call).2.recordStart := by
  rw [StepEntry.extent_of_written (written_item has mem)]

theorem extent_snd {call : WriteCall} (mem : call ∈ calls) :
    (reader.item call).2.extent.2.toNat =
      (reader.item call).2.recordStart.toNat + call.snapshot.count := by
  obtain ⟨before, after, split⟩ := List.append_of_mem mem
  obtain ⟨first, stop⟩ := has.range before call after split
  rw [stop, ← first, extent_fst has mem]

/-- The records of a call end at a word, so its range is exact. -/
theorem endsAtWord_item {call : WriteCall} (mem : call ∈ calls) :
    (reader.item call).2.EndsAtWord := by
  rw [← StepEntry.extent_le_iff, UInt64.le_iff_toNat_le, extent_snd has mem, extent_fst has mem]
  exact Nat.le_add_right _ _

/-- Where two calls start of which one was made before the other. -/
theorem recordStart_of_split {before between after : List WriteCall} {first second : WriteCall}
    (split : calls = before ++ first :: (between ++ second :: after)) :
    (reader.item first).2.recordStart.toNat = WriteCall.recordTotal before ∧
      (reader.item second).2.recordStart.toNat =
        WriteCall.recordTotal before + WriteCall.recordTotal (first :: between) := by
  have left : first ∈ calls := split ▸ List.mem_append_cons_self
  have later : calls = (before ++ first :: between) ++ second :: after := by
    rw [split, List.append_assoc, List.cons_append]
  have right : second ∈ calls := later ▸ List.mem_append_cons_self
  rw [← extent_fst has left, ← extent_fst has right, ← WriteCall.recordTotal_append]
  exact ⟨(has.range before first _ split).1, (has.range _ second after later).1⟩

/-- A call that was made before another ends before the other one starts. -/
theorem recordStart_add_le_of_sublist {first second : WriteCall}
    (order : [first, second].Sublist calls) :
    (reader.item first).2.recordStart.toNat + first.snapshot.count ≤
      (reader.item second).2.recordStart.toNat := by
  obtain ⟨before, between, after, split⟩ := exists_split_of_pair_sublist order
  obtain ⟨atFirst, atSecond⟩ := recordStart_of_split has split
  rw [atFirst, atSecond, WriteCall.recordTotal_cons]
  omega

theorem extent_le_of_sublist {first second : WriteCall}
    (order : [first, second].Sublist calls) :
    (reader.item first).2.extent.2 ≤ (reader.item second).2.extent.1 := by
  have members := order.subset
  rw [UInt64.le_iff_toNat_le, extent_snd has (members List.mem_cons_self),
    extent_fst has (members (List.mem_cons_of_mem _ List.mem_cons_self))]
  exact recordStart_add_le_of_sublist has order

/-- Steps with records are found in the order in which they were written. -/
theorem filter_writtenSteps :
    reader.writtenSteps.filter (fun item => item.2.recordCount ≠ 0) =
      (calls.map reader.item).filter fun item => item.2.recordCount ≠ 0 := by
  have ordered : (calls.map reader.item).Pairwise fun a b =>
      a.2.recordStart.toNat ≤ b.2.recordStart.toNat := by
    refine List.pairwise_map.2 (List.pairwise_iff_forall_sublist.2 fun order => ?_)
    exact Nat.le_trans (Nat.le_add_right _ _) (recordStart_add_le_of_sublist has order)
  -- Both rows are sorted by the first records, and no two steps with records have the same one.
  refine List.Perm.eq_of_pairwise ?_ ((pairwise_writtenSteps reader).filter _)
    (ordered.filter _) ((perm_writtenSteps has).filter _)
  intro a b first second below above
  obtain ⟨first, some⟩ := List.mem_filter.1 first
  obtain ⟨second, other⟩ := List.mem_filter.1 second
  obtain ⟨call, mem, rfl⟩ := List.mem_map.1 ((perm_writtenSteps has).mem_iff.1 first)
  obtain ⟨next, inside, rfl⟩ := List.mem_map.1 second
  rw [decide_eq_true_iff, recordCount_item has ‹_›] at some other
  refine Classical.byContradiction fun apart => ?_
  rcases pair_sublist_or mem inside (fun same => apart (congrArg reader.item same)) with
    order | order
  · have ends := recordStart_add_le_of_sublist has order
    omega
  · have ends := recordStart_add_le_of_sublist has order
    omega

/-- The values of a call, as its step is read. -/
theorem hasValues_recorded {call : WriteCall} (mem : call ∈ calls) :
    HasValues reader.manifest call.snapshot.count (Chunk.recorded manifest call.snapshot) := by
  have read := (readStep_eq_ok_iff.1 (has.values call mem)).2
  have counted := has.count call mem
  rw [← recordCount_item has mem]
  exact hasValues_of_readEntry (fun _ => by omega) read

/-! ### Fields as a whole -/

variable (names : reader.manifest.names.Nodup) {index : Nat} {field : Field}
  (found : reader.manifest.fields[index]? = some field)
  {values : WriteCall → Array field.dtype.Element}
  (own : ∀ call ∈ calls,
    (Chunk.recorded manifest call.snapshot)[index]? = some ⟨field.dtype, values call⟩)

include found own

theorem size_values {call : WriteCall} (mem : call ∈ calls) :
    (values call).size = call.snapshot.count * field.width := by
  obtain ⟨same, place, size⟩ := (hasValues_recorded has mem).column index field found
  rw [own call mem] at place
  cases place
  exact size

/-- Calls record as many values as their records have places. -/
theorem length_flatMap_values {part : List WriteCall} (inside : part ⊆ calls) :
    (part.flatMap fun call => (values call).toList).length =
      WriteCall.recordTotal part * field.width := by
  induction part with
  | nil => rw [WriteCall.recordTotal_nil, Nat.zero_mul, List.flatMap_nil, List.length_nil]
  | cons call part ih =>
    obtain ⟨first, others⟩ := List.cons_subset.1 inside
    rw [List.flatMap_cons, List.length_append, ih others, Array.length_toList,
      size_values has found own first, WriteCall.recordTotal_cons, Nat.add_mul]

include names in
/-- A field is read as what the calls recorded of it, put end to end in the order of the calls. -/
theorem readField_of_hasCalls :
    reader.readField field.name =
      .ok ⟨field.dtype, (calls.flatMap fun call => (values call).toList).toArray⟩ := by
  have read : ∀ call ∈ calls, reader.readEntry (UInt32.ofNat (reader.item call).1)
      (reader.item call).2 = .ok (Chunk.recorded manifest call.snapshot) := by
    intro call mem
    rw [item, UInt32.ofNat_toNat]
    exact (readStep_eq_ok_iff.1 (has.values call mem)).2
  have readable : ∀ item ∈ reader.writtenSteps, ∃ fields,
      reader.readEntry (UInt32.ofNat item.1) item.2 = .ok fields ∧
        HasValues reader.manifest item.2.recordCount fields := by
    intro item mem
    obtain ⟨call, inside, rfl⟩ := List.mem_map.1 ((perm_writtenSteps has).mem_iff.1 mem)
    rw [recordCount_item has inside]
    exact ⟨_, read call inside, hasValues_recorded has inside⟩
  -- Steps without records have no values, so it does not matter where they are in the row.
  have empty : ∀ item ∈ reader.writtenSteps, decide (item.2.recordCount ≠ 0) = false →
      reader.row index field item = [] := by
    intro item mem none
    rw [decide_eq_false_iff_not, Decidable.not_not] at none
    refine List.eq_nil_of_length_eq_zero ?_
    rw [length_row found (readable item mem), none, Nat.zero_mul]
  have ordered : (reader.writtenSteps.map (reader.row index field)).flatten =
      calls.flatMap fun call => (values call).toList := by
    rw [← List.flatMap_def, ← flatMap_filter empty, filter_writtenSteps has, flatMap_filter,
      List.flatMap_map, List.flatMap_def, List.flatMap_def]
    · exact congrArg List.flatten
        (List.map_congr_left fun call mem => row_eq (read call mem) (own call mem))
    · exact fun item mem => empty item ((perm_writtenSteps has).mem_iff.2 mem)
  rw [← ordered]
  exact readField_eq_ok found readable names

/-- The range of a step selects what its call recorded. -/
theorem extract_of_hasCalls (overflow : Overflow) {call : WriteCall} (mem : call ∈ calls) :
    ∃ range, reader.stepRange overflow call.step = .ok range ∧
      (calls.flatMap fun call => (values call).toList).toArray.extract
        (range.1.toNat * field.width) (range.2.toNat * field.width) = values call := by
  obtain ⟨before, after, split⟩ := List.append_of_mem mem
  obtain ⟨first, stop⟩ := has.range before call after split
  have part : before ⊆ calls := fun other inside => split ▸ List.mem_append_left _ inside
  have front := length_flatMap_values has found own part
  have size := size_values has found own mem
  refine ⟨_, (stepRange_of_readStep (has.values call mem)).trans
    (StepEntry.recordRange_of_endsAtWord (endsAtWord_item has mem)), ?_⟩
  rw [first, stop, Nat.add_mul, ← size, ← front, split, List.flatMap_append, List.flatMap_cons]
  simp

end HasCalls

end Reader

/-! ## Runs -/

namespace Writer

section Holds

variable {layout : RunLayout} {schema : FileSchema} {format : FileFormat}
  {accepted : List WriteCall} {records : List StepRecord} {writer : Writer} {disk : Disk}
  (holds : writer.Holds layout schema format accepted records disk)
  (distinct : (accepted.map WriteCall.step).Nodup)

include holds distinct

/-- The written entries are those of the accepted calls. -/
theorem perm_occupied_of_holds :
    (StepTable.occupied (writer.image layout schema format records).table).Perm
      (accepted.map fun call =>
        (call.step.toNat, (writer.image layout schema format records).entry call.step)) := by
  have steps : (writer.image layout schema format records).records.map StepRecord.step =
    accepted.map WriteCall.step := WriteCall.map_step_records holds.records
  have listed := FileImage.perm_occupied holds.file.within (steps ▸ distinct)
  rw [steps, List.map_map] at listed
  exact listed

/-- Distinct steps have fewer than `2 ^ 63` records: there are fewer than `2 ^ 32` of them, each
with fewer than `2 ^ 31` records. -/
theorem recordTotal_lt_of_distinct : WriteCall.recordTotal accepted < 2 ^ 63 := by
  have listed := (perm_occupied_of_holds holds distinct).length_eq
  have part : (StepTable.occupied (writer.image layout schema format records).table).length ≤
      (writer.image layout schema format records).table.length := by
    refine Nat.le_trans (List.length_filter_le _ _) (Nat.le_of_eq ?_)
    rw [List.length_map, List.length_zipIdx]
  rw [listed, List.length_map, FileImage.length_table] at part
  have steps := (writer.image layout schema format records).stepCount.toNat_lt
  have small : ∀ count ∈ accepted.map (·.snapshot.count), count ≤ 2 ^ 31 - 1 := by
    intro count mem
    obtain ⟨call, inside, rfl⟩ := List.mem_map.1 mem
    exact holds.counts call inside
  have bound := sumOf_le small
  rw [List.length_map] at bound
  rw [WriteCall.recordTotal]
  omega

/-- A reader of the file has the accepted calls. -/
theorem hasCalls_of_holds (room : (disk.content writer.file.id).length < 2 ^ 64)
    (fits : ∀ call ∈ accepted, call.snapshot.count * layout.manifest.stride < 2 ^ 64) :
    ((writer.image layout schema format records).reader schema
      layout.manifest.asDeclared).HasCalls layout.manifest accepted := by
  have total : WriteCall.recordTotal accepted < 2 ^ 64 :=
    Nat.lt_trans (recordTotal_lt_of_distinct holds distinct) (by decide)
  generalize same : (writer.image layout schema format records).reader schema
    layout.manifest.asDeclared = reader
  -- A call is read back from the entry that the table has for its step.
  have own : ∀ before call after, accepted = before ++ call :: after →
      reader.readStep call.step =
        .ok ((reader.item call).2, Chunk.recorded layout.manifest call.snapshot) ∧
      (reader.item call).2.particleCount.toInt = call.snapshot.count ∧
      (reader.item call).2.extent.1.toNat = WriteCall.recordTotal before ∧
      (reader.item call).2.extent.2.toNat =
        WriteCall.recordTotal before + call.snapshot.count := by
    intro before call after split
    obtain ⟨entry, read, -, count, -, range⟩ := exists_entry_of_holds holds room split
      (ne_of_nodup_map distinct split) (fits call (split ▸ List.mem_append_cons_self)) total
    rw [same] at read
    rw [Reader.item_of_readStep read]
    exact ⟨read, count, range⟩
  have each : ∀ call ∈ accepted, ∃ before after, accepted = before ++ call :: after :=
    fun call mem => List.append_of_mem mem
  refine ⟨distinct, ?_, ?_, ?_, fun before call after split => (own before call after split).2.2⟩
  · have listed := perm_occupied_of_holds holds distinct
    have items : (accepted.map fun call => (call.step.toNat,
        (writer.image layout schema format records).entry call.step)) =
          accepted.map reader.item := by
      refine List.map_congr_left fun call mem => ?_
      obtain ⟨found, -⟩ := StepTable.mem_occupied.1 (listed.mem_iff.2 (List.mem_map_of_mem mem))
      rw [Reader.item, List.getD_eq_getElem?_getD, ← same]
      exact congrArg (Prod.mk _) (congrArg (·.getD .unwritten) found.symm)
    rw [← items, ← same]
    exact listed
  · intro call mem
    obtain ⟨before, after, split⟩ := each call mem
    exact (own before call after split).1
  · intro call mem
    obtain ⟨before, after, split⟩ := each call mem
    exact (own before call after split).2.1

end Holds

/-- Fields are read in the order in which their steps were written. In a planned run whose accepted
calls are for distinct steps, in whatever order and with however many particles, every field can be
read: it is what the accepted calls recorded of it, put end to end in the order of the calls, and
the range of a step selects what its call recorded. The file, as well as the values that a call puts
together in memory, is shorter than `2 ^ 63` bytes. -/
theorem readField_of_run (overflow : Overflow) {parameters : RunParameters} {extended : Bool}
    {layout : RunLayout} {path : Path} {population : Population} {globals : GlobalAttributes}
    {created : Timestamp} {format : FileFormat} {policy : CompressionPolicy}
    {disk start final : Disk} {writer finish : Writer} {calls accepted : List WriteCall}
    (planned : Registry.default.plan parameters extended = .ok layout)
    (reliable : disk.IsReliable)
    (made : (create path population layout (layout.fileSchema globals created) format policy).on
      disk = (.ok writer, start))
    (run : writeAll layout calls writer start = (accepted, finish, final))
    (distinct : (accepted.map WriteCall.step).Nodup)
    (room : (final.content finish.file.id).length < 2 ^ 63)
    (memory : ∀ call ∈ accepted, call.snapshot.count * layout.manifest.stride < 2 ^ 63) :
    ∃ reader, Reader.ofBytes overflow (final.content finish.file.id) = .ok reader ∧
      reader.manifest = layout.manifest.asDeclared ∧
      ∀ field ∈ layout.manifest.fields, ∃ values : Array field.dtype.Element,
        reader.readField field.name = .ok ⟨field.dtype, values⟩ ∧
        values.toList =
          accepted.flatMap (fun call => (field.recorded call.snapshot).values.toList) ∧
        values.size = reader.header.recordLength.toNat * field.width ∧
        ∀ call ∈ accepted, ∃ range, reader.stepRange overflow call.step = .ok range ∧
          values.extract (range.1.toNat * field.width) (range.2.toNat * field.width) =
            (field.recorded call.snapshot).values := by
  have short : (final.content finish.file.id).length < 2 ^ 64 := Nat.lt_trans room (by decide)
  obtain ⟨-, records, holds⟩ := holds_of_run reliable made run short
  have fits : ∀ call ∈ accepted, call.snapshot.count * layout.manifest.stride < 2 ^ 64 :=
    fun call mem => Nat.lt_trans (memory call mem) (by decide)
  have opened := ofBytes_of_holds overflow (Registry.isPlanned_of_plan planned) holds short
  have has := hasCalls_of_holds holds distinct short fits
  have total := recordTotal_lt_of_distinct holds distinct
  -- The header counts the records of all calls, which for distinct steps are those of the file.
  have counter : (finish.image layout (layout.fileSchema globals created) format
      records).header.recordLength = UInt64.ofNat (WriteCall.recordTotal accepted) := by
    rw [← holds.file.header]
    exact recordLength_of_holds holds
  refine ⟨_, opened, rfl, fun field mem => ?_⟩
  obtain ⟨index, own⟩ := List.mem_iff_getElem?.1 mem
  have found : layout.manifest.asDeclared.fields[index]? = some field.asDeclared := by
    rw [Manifest.asDeclared, List.getElem?_map, own]
    rfl
  have recorded : ∀ call ∈ accepted, (Chunk.recorded layout.manifest call.snapshot)[index]? =
      some ⟨field.dtype, (field.recorded call.snapshot).values⟩ := by
    intro call _
    rw [Chunk.recorded, List.getElem?_map, own]
    rfl
  refine ⟨_, Reader.readField_of_hasCalls has (Reader.of_ofBytes opened).2 found recorded, rfl, ?_,
    fun call inside => Reader.extract_of_hasCalls has found recorded overflow inside⟩
  have size := Reader.length_flatMap_values has found recorded fun _ inside => inside
  have length : (finish.image layout (layout.fileSchema globals created) format
      records).header.recordLength.toNat = WriteCall.recordTotal accepted := by
    rw [counter]
    exact UInt64.toNat_ofNat_of_lt' (Nat.lt_trans total (by decide))
  exact List.size_toArray.trans (size.trans (congrArg (· * field.width) length.symm))

end Writer

/-! ## A run that leaves its first step for the end -/

namespace FallingCalls

/-- The second step without particles, and after it the first one with two. -/
def calls : List WriteCall := [⟨1, SmallRun.snapshot []⟩, ⟨0, SmallRun.pair⟩]

def finish : Writer := (Writer.writeAll SmallRun.layout calls SmallRun.writer SmallRun.start).2.1

def final : Disk := (Writer.writeAll SmallRun.layout calls SmallRun.writer SmallRun.start).2.2

theorem writeAll_eq :
    Writer.writeAll SmallRun.layout calls SmallRun.writer SmallRun.start =
      (calls, finish, final) := rfl

set_option maxRecDepth 4000 in
theorem length_lt : (final.content finish.file.id).length < 2 ^ 63 := by decide +kernel

end FallingCalls

/-- The masses are read though the step without particles starts at the same record. -/
theorem Writer.readField_fallingCalls :
    ∃ reader, Reader.ofBytes .stops (FallingCalls.final.content FallingCalls.finish.file.id) =
        .ok reader ∧
      ∃ values : Array Binary32, reader.readField "mass" = .ok ⟨.float32, values⟩ ∧
        values.toList = [⟨0x3F800000⟩, ⟨0x40000000⟩] := by
  obtain ⟨reader, opened, -, fields⟩ := Writer.readField_of_run .stops SmallRun.plan_eq_ok
    SmallRun.reliable SmallRun.create_on FallingCalls.writeAll_eq (by decide)
    FallingCalls.length_lt (by decide)
  have mass : Field.standard "mass" .float32 [("units", .text "grams")] ∈
      SmallRun.layout.manifest.fields := by decide +kernel
  obtain ⟨values, read, whole, -⟩ := fields _ mass
  have recorded : FallingCalls.calls.flatMap (fun call =>
      ((Field.standard "mass" .float32 [("units", .text "grams")]).recorded
        call.snapshot).values.toList) = ([⟨0x3F800000⟩, ⟨0x40000000⟩] : List Binary32) := by
    decide +kernel
  exact ⟨reader, opened, values, read, whole.trans recorded⟩

end RaggedTrajectory
