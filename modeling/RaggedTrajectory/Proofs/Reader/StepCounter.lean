import Mathlib.Data.Finset.Card
import RaggedTrajectory.Proofs.Reader.RoundTrip

/-!
# The counter of steps

The header of a file has a counter of steps, and its table a mark for every step that is written.
The counter is moved up to the step behind the one that is appended, so it is the height of the
written steps and not their number. The two agree as long as the written steps are the first ones
of the time axis, in whatever order and however often they were written. One step that is left out
below a written one, and the counter is too large.

* `FileImage.countP_written_table`: the number of marks is the number of distinct steps.
* `card_le_spanOf`, `spanOf_eq_card_iff`: how the height of steps bounds their number.
* `Writer.countsSteps_of_run`: what the counter says after any run.
-/

namespace RaggedTrajectory

/-! ## The height of steps -/

/-- What is below the height of steps is below one of them, or it is one of them. -/
theorem lt_spanOf_iff {steps : List UInt32} {i : Nat} :
    i < spanOf steps ↔ ∃ step ∈ steps, i ≤ step.toNat := by
  -- The accumulator starts at zero, but the induction needs it at any value.
  suffices reaches : ∀ most,
      i < steps.foldl (fun most step => max most (step.toNat + 1)) most ↔
        i < most ∨ ∃ step ∈ steps, i ≤ step.toNat by
    exact (reaches 0).trans (or_iff_right (Nat.not_lt_zero i))
  induction steps with
  | nil => simp
  | cons step steps ih =>
    intro most
    rw [List.foldl_cons, ih, lt_max_iff, Nat.lt_succ_iff, List.exists_mem_cons_iff, or_assoc]

/-- Every step is below the height. -/
theorem image_toNat_subset (steps : List UInt32) :
    steps.toFinset.image UInt32.toNat ⊆ Finset.range (spanOf steps) := by
  intro i mem
  obtain ⟨step, inside, rfl⟩ := Finset.mem_image.1 mem
  apply Finset.mem_range.2
  apply lt_spanOf_iff.2
  exact ⟨step, List.mem_toFinset.1 inside, Nat.le_refl _⟩

theorem card_image_toNat (steps : List UInt32) :
    (steps.toFinset.image UInt32.toNat).card = steps.toFinset.card := by
  apply Finset.card_image_of_injective
  intro first second same
  exact UInt32.toNat_inj.1 same

/-- There are no more distinct steps than the height has room for. -/
theorem card_le_spanOf (steps : List UInt32) : steps.toFinset.card ≤ spanOf steps := by
  have bound := Finset.card_le_card (image_toNat_subset steps)
  rwa [card_image_toNat, Finset.card_range] at bound

/-- The height is the number of distinct steps if no step below one of them is missing. -/
theorem spanOf_eq_card_iff {steps : List UInt32} :
    spanOf steps = steps.toFinset.card ↔ ∀ step ∈ steps, ∀ below < step, below ∈ steps := by
  constructor
  · intro equal step mem below less
    -- The steps fill everything below the height, and what is below a step is below the height.
    have whole : steps.toFinset.image UInt32.toNat = Finset.range (spanOf steps) := by
      apply Finset.eq_of_subset_of_card_le (image_toNat_subset steps)
      rw [card_image_toNat, Finset.card_range, equal]
    have inside : below.toNat ∈ Finset.range (spanOf steps) := by
      apply Finset.mem_range.2
      apply lt_spanOf_iff.2
      exact ⟨step, mem, Nat.le_of_lt (UInt32.lt_iff_toNat_lt.1 less)⟩
    rw [← whole] at inside
    obtain ⟨other, own, same⟩ := Finset.mem_image.1 inside
    exact UInt32.toNat_inj.1 same ▸ List.mem_toFinset.1 own
  · intro closed
    have whole : Finset.range (spanOf steps) ⊆ steps.toFinset.image UInt32.toNat := by
      intro i mem
      obtain ⟨step, own, order⟩ := lt_spanOf_iff.1 (Finset.mem_range.1 mem)
      -- A number up to a step is a step itself.
      have word : (UInt32.ofNat i).toNat = i :=
        UInt32.toNat_ofNat_of_lt' (Nat.lt_of_le_of_lt order step.toNat_lt)
      refine Finset.mem_image.2 ⟨UInt32.ofNat i, List.mem_toFinset.2 ?_, word⟩
      rcases Nat.lt_or_eq_of_le order with less | rfl
      · apply closed step own
        rw [UInt32.lt_iff_toNat_lt, word]
        exact less
      · rw [UInt32.ofNat_toNat]
        exact own
    apply Nat.le_antisymm _ (card_le_spanOf steps)
    have bound := Finset.card_le_card whole
    rwa [Finset.card_range, card_image_toNat] at bound

/-! ## The marks of a table -/

/-- A step has a last record if it has one at all. -/
theorem StepRecord.isSome_lastOf?_iff {step : UInt32} {records : List StepRecord} :
    (lastOf? step records).isSome ↔ step ∈ records.map StepRecord.step := by
  induction records with
  | nil => simp [lastOf?]
  | cons record records ih =>
    rw [List.map_cons, List.mem_cons, ← ih, lastOf?]
    cases lastOf? step records with
    | some found => simp
    | none =>
      by_cases same : record.step = step
      · simp [same]
      · simp [same, Ne.symm same]

namespace FileImage

/-- A step has a mark if it was appended. -/
theorem written_entry_iff (image : FileImage) (step : UInt32) :
    (image.entry step).written = true ↔ step ∈ image.records.map StepRecord.step := by
  rw [← StepRecord.isSome_lastOf?_iff, entry]
  split
  · next none =>
      rw [none]
      exact iff_of_false Bool.false_ne_true Bool.false_ne_true
  · next before last found =>
      rw [found]
      exact iff_of_true rfl rfl

/-- The table has as many marks as there are distinct steps. -/
theorem countP_written_table {image : FileImage} (within : image.IsWithinAxis) :
    image.table.countP StepEntry.written =
      (image.records.map StepRecord.step).toFinset.card := by
  -- The places with a mark are the steps, as numbers.
  have marked : ((List.range image.stepCount.toNat).filter fun i =>
      (image.entry (UInt32.ofNat i)).written).toFinset =
        (image.records.map StepRecord.step).toFinset.image UInt32.toNat := by
    ext i
    rw [List.mem_toFinset, List.mem_filter, List.mem_range, written_entry_iff, Finset.mem_image]
    constructor
    · rintro ⟨bound, mem⟩
      have word : (UInt32.ofNat i).toNat = i :=
        UInt32.toNat_ofNat_of_lt' (Nat.lt_trans bound image.stepCount.toNat_lt)
      exact ⟨UInt32.ofNat i, List.mem_toFinset.2 mem, word⟩
    · rintro ⟨step, mem, rfl⟩
      rw [List.mem_toFinset] at mem
      obtain ⟨record, inside, rfl⟩ := List.mem_map.1 mem
      refine ⟨UInt32.lt_iff_toNat_lt.1 (within record inside), ?_⟩
      rw [UInt32.ofNat_toNat]
      exact mem
  rw [table, List.countP_map, List.countP_eq_length_filter, ← card_image_toNat, ← marked,
    List.toFinset_card_of_nodup (List.nodup_range.filter _)]
  rfl

end FileImage

/-! ## Counter and marks -/

/-- What a header and a table say about the number of calls for distinct steps. -/
structure Header.CountsSteps (header : Header) (table : List StepEntry) (calls : List WriteCall) :
    Prop where
  /-- The marks are those of the distinct steps. -/
  marks : table.countP StepEntry.written = (calls.map WriteCall.step).toFinset.card
  /-- The counter is one more than the largest step. -/
  height : ∀ i, i < header.stepsWritten.toNat ↔ ∃ call ∈ calls, i ≤ call.step.toNat
  /-- It is never too small. -/
  enough : table.countP StepEntry.written ≤ header.stepsWritten.toNat
  /-- It is the number of marks exactly if no step is left out below a written one. -/
  exact_iff : header.stepsWritten.toNat = table.countP StepEntry.written ↔
    ∀ call ∈ calls, ∀ step < call.step, ∃ other ∈ calls, other.step = step

namespace Writer

section Holds

variable {layout : RunLayout} {schema : FileSchema} {format : FileFormat}
  {accepted : List WriteCall} {records : List StepRecord} {writer : Writer} {disk : Disk}

theorem countsSteps_of_holds (holds : writer.Holds layout schema format accepted records disk) :
    writer.file.header.CountsSteps (writer.image layout schema format records).table accepted := by
  have within := holds.file.within
  have steps : (writer.image layout schema format records).records.map StepRecord.step =
    accepted.map WriteCall.step := WriteCall.map_step_records holds.records
  have marks := FileImage.countP_written_table within
  have counter := FileImage.toNat_stepsWritten within
  rw [steps] at marks counter
  rw [← holds.file.header] at counter
  refine ⟨marks, fun i => ?_, ?_, ?_⟩
  · rw [counter, lt_spanOf_iff]
    simp only [List.mem_map, exists_exists_and_eq_and]
  · rw [marks, counter]
    exact card_le_spanOf _
  · rw [marks, counter, spanOf_eq_card_iff]
    simp only [List.mem_map, forall_exists_index, and_imp, forall_apply_eq_imp_iff₂]

theorem decode_header_of_holds (overflow : Overflow)
    (holds : writer.Holds layout schema format accepted records disk)
    (room : (disk.content writer.file.id).length < 2 ^ 64) :
    Header.decode overflow (disk.content writer.file.id) = .ok writer.file.header := by
  rw [holds.content] at room ⊢
  rw [holds.file.header, FileImage.bytes]
  exact Header.decode_encode (FileImage.validate_header overflow room holds.file.within) _

/-- The table of a file is found at the offset in its header, with the chunks behind it or
without. -/
theorem decode_table_of_holds (holds : writer.Holds layout schema format accepted records disk)
    (room : (disk.content writer.file.id).length < 2 ^ 64) :
    StepTable.decode layout.stepCount.toNat
        ((disk.content writer.file.id).drop writer.file.header.tableOffset.toNat) =
      (writer.image layout schema format records).table ∧
    StepTable.decode layout.stepCount.toNat ((disk.content writer.file.id).slice
        writer.file.header.tableOffset.toNat (layout.stepCount.toNat * Header.entrySize)) =
      (writer.image layout schema format records).table := by
  rw [holds.content] at room ⊢
  rw [holds.file.header, FileImage.toNat_tableOffset room]
  have steps : layout.stepCount = (writer.image layout schema format records).stepCount := rfl
  rw [steps]
  -- Only the parts of the image matter, not what it was made from.
  generalize writer.image layout schema format records = image
  have front : image.tableOffset = (image.header.encode ++ image.block).length := by
    rw [List.length_append, Header.length_encode]
    rfl
  have read := StepTable.decode_flatMap_encode image.table
  rw [FileImage.length_table] at read
  rw [FileImage.bytes, ← List.append_assoc, front, ← image.length_tableBytes]
  constructor
  · rw [List.drop_left]
    exact read (StepRecord.chunks image.records)
  · rw [Bytes.slice_append_right _ _ _ (Nat.le_refl _), Nat.sub_self,
      Bytes.slice_append_left _ _ (Nat.le_of_eq (Nat.zero_add _)), Bytes.slice_zero_length]
    have whole := read []
    rw [List.append_nil] at whole
    exact whole

/-- So a reader that opens the file has the header in memory and the table of the image. -/
theorem entries_of_holds {overflow : Overflow}
    (holds : writer.Holds layout schema format accepted records disk)
    (room : (disk.content writer.file.id).length < 2 ^ 64) {reader : Reader}
    (opened : Reader.ofBytes overflow (disk.content writer.file.id) = .ok reader) :
    reader.header = writer.file.header ∧
      reader.entries = (writer.image layout schema format records).table := by
  simp only [Reader.ofBytes, Error.bind_eq_ok_iff] at opened
  obtain ⟨header, decoded, _, -, _, -, _, -, table, atTable, same⟩ := opened
  cases same
  rw [decode_header_of_holds overflow holds room] at decoded
  cases decoded
  refine ⟨rfl, ?_⟩
  -- The number of steps in the header is that of the layout.
  have steps : writer.file.header.stepCount = layout.stepCount := by
    rw [holds.file.header]
    rfl
  obtain ⟨-, -, rfl⟩ := Bytes.region_eq_ok_iff.1 atTable
  rw [Header.toNat_tableLength, steps]
  exact (decode_table_of_holds holds room).2

end Holds

/-- The counter of steps after any run. Whatever calls are made to the writer of a new file, for
whatever steps and in whatever order, the header of the file counts up to the largest step that is
written, and the table has a mark for each step that is. So the counter is the number of written
steps exactly if no step is left out below a written one; if one is, the counter is too large. The
disk grants every request, and the file is shorter than `2 ^ 63` bytes. -/
theorem countsSteps_of_run (overflow : Overflow) {path : Path} {population : Population}
    {layout : RunLayout} {schema : FileSchema} {format : FileFormat} {policy : CompressionPolicy}
    {disk start last : Disk} {writer finish : Writer} {calls accepted : List WriteCall}
    (reliable : disk.IsReliable)
    (made : (create path population layout schema format policy).on disk = (.ok writer, start))
    (run : writeAll layout calls writer start = (accepted, finish, last))
    (room : (last.content finish.file.id).length < 2 ^ 63) :
    Header.decode overflow (last.content finish.file.id) = .ok finish.file.header ∧
      finish.file.header.CountsSteps (StepTable.decode layout.stepCount.toNat
        ((last.content finish.file.id).drop finish.file.header.tableOffset.toNat)) accepted ∧
      ∀ reader, Reader.ofBytes overflow (last.content finish.file.id) = .ok reader →
        reader.header = finish.file.header ∧ reader.header.CountsSteps reader.entries accepted := by
  have short : (last.content finish.file.id).length < 2 ^ 64 := Nat.lt_trans room (by decide)
  obtain ⟨-, records, holds⟩ := holds_of_run reliable made run short
  have counts := countsSteps_of_holds holds
  refine ⟨decode_header_of_holds overflow holds short, ?_, fun reader opened => ?_⟩
  · rw [(decode_table_of_holds holds short).1]
    exact counts
  · obtain ⟨header, entries⟩ := entries_of_holds holds short opened
    rw [header, entries]
    exact ⟨rfl, counts⟩

/-- The small run leaves no step out below its two. -/
theorem countsSteps_smallRun :
    Header.decode .stops (SmallRun.final.content SmallRun.finish.file.id) =
        .ok SmallRun.finish.file.header ∧
      SmallRun.finish.file.header.stepsWritten.toNat =
        (StepTable.decode SmallRun.layout.stepCount.toNat
          ((SmallRun.final.content SmallRun.finish.file.id).drop
            SmallRun.finish.file.header.tableOffset.toNat)).countP StepEntry.written := by
  obtain ⟨decoded, counts, -⟩ := countsSteps_of_run .stops SmallRun.reliable SmallRun.create_on
    SmallRun.writeAll_eq SmallRun.length_lt
  refine ⟨decoded, counts.exact_iff.2 fun call mem step below => ?_⟩
  -- The larger of the two steps is the second one, and the first one is written.
  obtain rfl | rfl : call = ⟨0, SmallRun.snapshot []⟩ ∨ call = ⟨1, SmallRun.pair⟩ := by
    simpa [SmallRun.accepted] using mem
  · exact absurd below (UInt32.not_lt_zero)
  · refine ⟨_, List.mem_cons_self, ?_⟩
    have first := UInt32.lt_iff_toNat_lt.1 below
    exact UInt32.toNat_inj.1 (Nat.lt_one_iff.1 first).symm

end Writer

/-! ## A run that leaves its first step out -/

namespace SkippingCalls

/-- The second step alone. -/
def calls : List WriteCall := [⟨1, SmallRun.pair⟩]

def finish : Writer := (Writer.writeAll SmallRun.layout calls SmallRun.writer SmallRun.start).2.1

def final : Disk := (Writer.writeAll SmallRun.layout calls SmallRun.writer SmallRun.start).2.2

theorem writeAll_eq :
    Writer.writeAll SmallRun.layout calls SmallRun.writer SmallRun.start =
      (calls, finish, final) := rfl

set_option maxRecDepth 4000 in
theorem length_lt : (final.content finish.file.id).length < 2 ^ 63 := by decide +kernel

end SkippingCalls

/-- One step is written, and the counter says that there are two. -/
theorem Writer.stepsWritten_skippingCalls :
    writeAll SmallRun.layout SkippingCalls.calls SmallRun.writer SmallRun.start =
      (SkippingCalls.calls, SkippingCalls.finish, SkippingCalls.final) ∧
    ∃ reader, Reader.ofBytes .stops (SkippingCalls.final.content SkippingCalls.finish.file.id) =
        .ok reader ∧
      reader.header.stepsWritten = 2 ∧ reader.entries.countP StepEntry.written = 1 := by
  have short := Nat.lt_trans SkippingCalls.length_lt (show 2 ^ 63 < 2 ^ 64 by decide)
  obtain ⟨-, records, holds⟩ := holds_of_run SmallRun.reliable SmallRun.create_on
    SkippingCalls.writeAll_eq short
  have opened := ofBytes_of_holds .stops (Registry.isPlanned_of_plan SmallRun.plan_eq_ok) holds
    short
  obtain ⟨header, entries⟩ := entries_of_holds holds short opened
  refine ⟨SkippingCalls.writeAll_eq, _, opened, ?_, ?_⟩
  · rw [header]
    rfl
  · rw [entries, (countsSteps_of_holds holds).marks]
    rfl

end RaggedTrajectory
