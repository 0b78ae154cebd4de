import RaggedTrajectory.Proofs.Reader.RoundTrip

/-!
# Steps tile the record axis

If the steps of the accepted calls rise, the entries of the written steps, in the order of the
table, are those of the calls in their order. So each starts where the one before it ends, sorting
them by their first records changes nothing, even where a step without particles shares its start
with the next one, and a reader finds the axis covered.

* `StepTable.occupied_set`: an entry behind all written ones comes last.
* `Reader.checkTiling_concat`: one more entry tiles on.
* `FileImage.tiles_table`: the invariant of runs with rising steps.
* `Reader.verify_eq_ok_iff`: what is checked when a file is verified.
* `Writer.verify_of_run`: the offsets are sums of counts, and a reader accepts the file.
-/

namespace RaggedTrajectory

namespace StepTable

/-- The written entries of a table with their steps. -/
def occupied (table : List StepEntry) : List (Nat × StepEntry) :=
  (table.zipIdx.map Prod.swap).filter fun item => item.2.written

/-- Unwritten entries are passed over. -/
theorem filter_zipIdx_eq_nil {table : List StepEntry} (start : Nat)
    (vacant : ∀ entry ∈ table, entry.written = false) :
    ((table.zipIdx start).map Prod.swap).filter (fun item => item.2.written) = [] := by
  rw [List.filter_eq_nil_iff]
  intro item mem
  obtain ⟨pair, inside, rfl⟩ := List.mem_map.1 mem
  have own := vacant pair.1 (List.fst_mem_of_mem_zipIdx inside)
  simp [own]

/-- An entry behind all written ones comes last among the written ones. -/
theorem occupied_set {table : List StepEntry} {step : Nat} {entry : StepEntry}
    (inside : step < table.length) (written : entry.written = true)
    (vacant : ∀ other ∈ table.drop step, other.written = false) :
    occupied (table.set step entry) = occupied table ++ [(step, entry)] := by
  have front : (table.take step).length = step := List.length_take_of_le (Nat.le_of_lt inside)
  have behind : ∀ other ∈ table.drop (step + 1), other.written = false := fun other mem =>
    vacant other (by
      rw [List.drop_eq_getElem_cons inside]
      exact List.mem_cons_of_mem _ mem)
  have old : occupied table =
      ((table.take step).zipIdx.map Prod.swap).filter fun item => item.2.written := by
    rw [occupied]
    conv => lhs; rw [← List.take_append_drop step table]
    rw [List.zipIdx_append, List.map_append, List.filter_append, filter_zipIdx_eq_nil _ vacant,
      List.append_nil]
  -- Both tables agree up to the step, and have nothing written behind it.
  rw [old, occupied, List.set_eq_take_append_cons_drop, if_pos inside, List.zipIdx_append,
    List.map_append, List.filter_append, List.zipIdx_cons, List.map_cons, front, Nat.zero_add,
    List.filter_cons_of_pos (by exact written), filter_zipIdx_eq_nil _ behind]
  rfl

end StepTable

namespace Reader

theorem writtenSteps_eq (reader : Reader) :
    reader.writtenSteps =
      (StepTable.occupied reader.entries).mergeSort fun a b => a.2.recordStart ≤ b.2.recordStart :=
  rfl

/-- A row of entries tiles the axis if the first one starts at the given record and the others tile
on from its end. -/
theorem checkTiling_cons_eq_ok_iff {overflow : Overflow} {start stop : UInt64} {first : StepEntry}
    {entries : List StepEntry} :
    checkTiling overflow start (first :: entries) = .ok stop ↔
      first.recordStart = start ∧ ∃ range, first.recordRange overflow = .ok range ∧
        checkTiling overflow range.2 entries = .ok stop := by
  rw [checkTiling]
  split
  · next apart => simp [apart]
  · next begins =>
    rw [Error.bind_eq_ok_iff, Decidable.not_not.1 begins]
    exact ⟨fun tiled => ⟨rfl, tiled⟩, fun tiled => tiled.2⟩

/-- Entries that tile the axis, and one more that starts where they end. -/
theorem checkTiling_concat {overflow : Overflow} {start stop : UInt64} {entries : List StepEntry}
    {entry : StepEntry} (tiled : checkTiling overflow start entries = .ok stop)
    (next : entry.recordStart = stop) (ends : entry.EndsAtWord) :
    checkTiling overflow start (entries ++ [entry]) = .ok entry.extent.2 := by
  induction entries generalizing start with
  | nil =>
    obtain rfl : start = stop := by simpa [checkTiling] using tiled
    rw [List.nil_append, checkTiling, if_neg (not_not_intro next),
      StepEntry.recordRange_of_endsAtWord ends]
    rfl
  | cons first entries ih =>
    obtain ⟨begins, ⟨own, last⟩, range, rest⟩ := checkTiling_cons_eq_ok_iff.1 tiled
    rw [List.cons_append, checkTiling_cons_eq_ok_iff]
    exact ⟨begins, ⟨own, last⟩, range, ih rest⟩

end Reader

/-! ## The invariant of rising steps -/

namespace StepTable

/-- The written entries of a table cover the records up to `total`, in their order. -/
structure Tiles (table : List StepEntry) (total : Nat) : Prop where
  /-- No sum is too large for a word. -/
  covered : ∀ overflow, Reader.checkTiling overflow 0 ((occupied table).map Prod.snd) =
    .ok (UInt64.ofNat total)
  sorted : (occupied table).Pairwise fun a b => a.2.recordStart.toNat ≤ b.2.recordStart.toNat
  bounded : ∀ item ∈ occupied table, item.2.recordStart.toNat ≤ total

/-- A table keeps tiling when an entry that starts at the end is put behind all written ones. -/
theorem tiles_set {table : List StepEntry} {total count step : Nat} {entry : StepEntry}
    (tiles : Tiles table total) (inside : step < table.length) (written : entry.written = true)
    (vacant : ∀ other ∈ table.drop step, other.written = false)
    (begins : entry.recordStart = UInt64.ofNat total) (counted : entry.count = UInt64.ofNat count)
    (word : total + count < 2 ^ 64) : Tiles (table.set step entry) (total + count) := by
  have start : entry.recordStart.toNat = total := by
    rw [begins]
    exact UInt64.toNat_ofNat_of_lt' (Nat.lt_of_le_of_lt (Nat.le_add_right _ _) word)
  have number : entry.count.toNat = count := by
    rw [counted]
    exact UInt64.toNat_ofNat_of_lt' (Nat.lt_of_le_of_lt (Nat.le_add_left _ _) word)
  have occupied := occupied_set inside written vacant
  refine ⟨fun overflow => ?_, ?_, fun item mem => ?_⟩
  · have stop : entry.extent.2 = UInt64.ofNat (total + count) := by
      rw [StepEntry.extent_of_written written, begins, counted, UInt64.ofNat_add]
    have ends : entry.EndsAtWord := fun _ => by
      rw [start, number]
      exact word
    rw [occupied, List.map_append, ← stop]
    exact Reader.checkTiling_concat (tiles.covered overflow) begins ends
  · rw [occupied, List.pairwise_append]
    refine ⟨tiles.sorted, List.pairwise_singleton _ _, fun earlier mem last isLast => ?_⟩
    obtain rfl := List.mem_singleton.1 isLast
    exact Nat.le_trans (tiles.bounded earlier mem) (Nat.le_of_eq start.symm)
  · rw [occupied] at mem
    rcases List.mem_append.1 mem with mem | mem
    · exact Nat.le_trans (tiles.bounded item mem) (Nat.le_add_right _ _)
    · obtain rfl := List.mem_singleton.1 mem
      exact Nat.le_trans (Nat.le_of_eq start) (Nat.le_add_right _ _)

/-- A table without written entries covers nothing. -/
theorem tiles_of_vacant {table : List StepEntry} (vacant : ∀ entry ∈ table, entry.written = false) :
    Tiles table 0 := by
  have none : occupied table = [] := filter_zipIdx_eq_nil 0 vacant
  refine ⟨fun overflow => ?_, ?_, fun item mem => ?_⟩
  · rw [none]
    rfl
  · rw [none]
    exact List.Pairwise.nil
  · rw [none] at mem
    cases mem

end StepTable

namespace FileImage

/-- The entries of a table from a step on are unwritten if all appends were for steps before. -/
theorem written_eq_false {image : FileImage} {step : Nat}
    (before : ∀ record ∈ image.records, record.step.toNat < step) :
    ∀ entry ∈ image.table.drop step, entry.written = false := by
  intro entry mem
  obtain ⟨i, inside, rfl⟩ := List.mem_iff_getElem.1 mem
  have bound : step + i < image.stepCount.toNat := by
    rw [List.length_drop, length_table] at inside
    omega
  have word : (UInt32.ofNat (step + i)).toNat = step + i :=
    UInt32.toNat_ofNat_of_lt' (Nat.lt_trans bound image.stepCount.toNat_lt)
  have absent : ∀ record ∈ image.records, record.step ≠ UInt32.ofNat (step + i) := by
    rintro record inside same
    have below := before record inside
    rw [same, word] at below
    omega
  simp only [table, List.getElem_drop, List.getElem_map, List.getElem_range,
    entry_eq_unwritten absent]
  rfl

/-- If the steps of calls rise, the table of their records tiles the axis. -/
theorem tiles_table {layout : RunLayout} {policy : CompressionPolicy} {image : FileImage}
    {calls : List WriteCall} (made : WriteCall.records layout policy 0 calls = .ok image.records)
    (rising : calls.Pairwise fun first second => first.step < second.step)
    (small : ∀ call ∈ calls, call.snapshot.count ≤ TrajectoryFile.maxCount)
    (within : image.IsWithinAxis) (word : WriteCall.recordTotal calls < 2 ^ 64) :
    StepTable.Tiles image.table (WriteCall.recordTotal calls) := by
  -- The induction takes the calls from the last one on, as the file was written.
  obtain ⟨reversed, rfl⟩ : ∃ reversed : List WriteCall, calls = reversed.reverse :=
    ⟨calls.reverse, calls.reverse_reverse.symm⟩
  induction reversed generalizing image with
  | nil =>
    have none : [] = image.records := by simpa [WriteCall.records] using made
    have vacant : ∀ entry ∈ image.table.drop 0, entry.written = false :=
      written_eq_false fun record mem => by
        rw [← none] at mem
        cases mem
    exact StepTable.tiles_of_vacant vacant
  | cons call reversed ih =>
    rw [List.reverse_cons] at made rising small word ⊢
    obtain ⟨rises, -, apart⟩ := List.pairwise_append.1 rising
    obtain ⟨front, record, before, own, split⟩ := WriteCall.records_concat.1 made
    obtain ⟨earlier, rfl, rfl⟩ := exists_append_eq split
    obtain ⟨step, -, counted, begins, -⟩ := WriteCall.record_eq_ok own
    rw [WriteCall.recordTotal_concat] at word ⊢
    -- The last call is for a step above all others, so its entry goes behind the written ones.
    have narrower : earlier.IsWithinAxis := fun other mem =>
      within other (List.mem_append_left _ mem)
    have tiles := ih narrower before rises
      (fun other mem => small other (List.mem_append_left _ mem)) (by omega)
    have below : ∀ other ∈ earlier.records, other.step.toNat < record.step.toNat := by
      intro other mem
      obtain ⟨previous, inside, equal⟩ := WriteCall.exists_call_of_mem_records before mem
      rw [← equal, step]
      exact UInt32.lt_iff_toNat_lt.1 (apart previous inside call List.mem_cons_self)
    have inside : record.step.toNat < earlier.table.length :=
      toNat_lt_length_table (within record List.mem_append_cons_self)
    have count := (StepRecord.count_entryAt counted
      (small call List.mem_append_cons_self) earlier.bytes.length).1
    rw [table_append]
    exact StepTable.tiles_set tiles inside rfl (written_eq_false below) begins count (by omega)

end FileImage

/-! ## Verifying -/

namespace Reader

/-- Sorting changes nothing where the entries tile the axis. -/
theorem writtenSteps_of_tiles {reader : Reader} {total : Nat}
    (tiles : StepTable.Tiles reader.entries total) :
    reader.writtenSteps = StepTable.occupied reader.entries := by
  -- A stable sort keeps a row that is in order, also where entries share their start.
  rw [writtenSteps_eq]
  refine List.mergeSort_of_pairwise (tiles.sorted.imp fun {a b} order => ?_)
  exact decide_eq_true (UInt64.le_iff_toNat_le.2 order)

/-- What is checked when a file is verified. -/
theorem verify_eq_ok_iff {overflow : Overflow} {reader : Reader} :
    reader.verify overflow = .ok () ↔
      checkTiling overflow 0 (reader.writtenSteps.map Prod.snd) = .ok reader.header.recordLength ∧
      ∀ step < reader.header.stepCount, ∃ result, reader.readStep step = .ok result := by
  have each : (∀ i ∈ List.range reader.header.stepCount.toNat,
      (do let _ ← reader.readStep (UInt32.ofNat i) : Except Error Unit) = .ok ()) ↔
      ∀ step < reader.header.stepCount, ∃ result, reader.readStep step = .ok result := by
    constructor
    · intro all step inside
      have own := all step.toNat (List.mem_range.2 (UInt32.lt_iff_toNat_lt.1 inside))
      rw [UInt32.ofNat_toNat] at own
      obtain ⟨result, read, -⟩ := Error.bind_eq_ok_iff.1 own
      exact ⟨result, read⟩
    · intro all i mem
      -- A step of the loop is below the number of steps, so it is a word.
      have bound := List.mem_range.1 mem
      have word : (UInt32.ofNat i).toNat = i :=
        UInt32.toNat_ofNat_of_lt' (Nat.lt_trans bound reader.header.stepCount.toNat_lt)
      obtain ⟨result, read⟩ := all (UInt32.ofNat i) (by
        rw [UInt32.lt_iff_toNat_lt, word]
        exact bound)
      rw [read]
      rfl
  rw [verify, Error.bind_eq_ok_iff]
  simp only [Error.guard_eq_ok_iff]
  rw [← each]
  simp only [Error.forM_eq_ok_iff]
  constructor
  · rintro ⟨covered, tiled, same, readable⟩
    rw [Decidable.not_not] at same
    exact ⟨same ▸ tiled, readable⟩
  · rintro ⟨tiled, readable⟩
    exact ⟨_, tiled, not_not_intro rfl, readable⟩

/-- The range of a step that can be read is that of its entry. -/
theorem stepRange_of_readStep {overflow : Overflow} {reader : Reader} {step : UInt32}
    {entry : StepEntry} {fields : List FieldData}
    (read : reader.readStep step = .ok (entry, fields)) :
    reader.stepRange overflow step = entry.recordRange overflow := by
  rw [stepRange, (readStep_eq_ok_iff.1 read).1]
  rfl

/-- A file is accepted if its entries tile the axis up to its counter of records, and every step can
be read. -/
theorem verify_eq_ok (overflow : Overflow) {reader : Reader} {total : Nat}
    (tiles : StepTable.Tiles reader.entries total)
    (length : reader.header.recordLength = UInt64.ofNat total)
    (readable : ∀ step < reader.header.stepCount, ∃ result, reader.readStep step = .ok result) :
    reader.verify overflow = .ok () := by
  refine verify_eq_ok_iff.2 ⟨?_, readable⟩
  rw [writtenSteps_of_tiles tiles, tiles.covered, length]

end Reader

namespace WriteCall

/-- Where steps rise, the calls before a call are those for smaller steps, and it is the last for
its step. -/
theorem filter_eq_before {before after : List WriteCall} {call : WriteCall}
    (rising : (before ++ call :: after).Pairwise fun first second => first.step < second.step) :
    (before ++ call :: after).filter (fun other => other.step < call.step) = before ∧
      ∀ later ∈ after, later.step ≠ call.step := by
  obtain ⟨-, behind, apart⟩ := List.pairwise_append.1 rising
  obtain ⟨above, -⟩ := List.pairwise_cons.1 behind
  have all : ∀ other ∈ before, decide (other.step < call.step) = true := fun other mem =>
    decide_eq_true (apart other mem call List.mem_cons_self)
  have none : ∀ other ∈ call :: after, ¬decide (other.step < call.step) = true := by
    intro other mem
    rw [decide_eq_true_iff]
    rcases List.mem_cons.1 mem with rfl | mem
    · exact UInt32.lt_irrefl _
    · exact UInt32.lt_asymm (above other mem)
  refine ⟨?_, fun later mem same => UInt32.lt_irrefl _ (same ▸ above later mem)⟩
  rw [List.filter_append, List.filter_eq_self.2 all, List.filter_eq_nil_iff.2 none, List.append_nil]

end WriteCall

namespace Writer

/-- Offsets are sums of counts. In a planned run whose accepted calls are for rising steps, a step
starts where the counts of the written steps before it add up to, steps that are skipped are empty,
the counters of the reader and of the writer are the sum of all counts, and the file is accepted. -/
theorem verify_of_run (overflow : Overflow) {parameters : RunParameters} {extended : Bool}
    {layout : RunLayout} {path : Path} {population : Population} {globals : GlobalAttributes}
    {created : Timestamp} {format : FileFormat} {policy : CompressionPolicy}
    {disk start final : Disk} {writer finish : Writer} {calls accepted : List WriteCall}
    (planned : Registry.default.plan parameters extended = .ok layout)
    (reliable : disk.IsReliable)
    (made : (create path population layout (layout.fileSchema globals created) format policy).on
      disk = (.ok writer, start))
    (run : writeAll layout calls writer start = (accepted, finish, final))
    (rising : accepted.Pairwise fun first second => first.step < second.step)
    (total : WriteCall.recordTotal accepted < 2 ^ 63)
    (room : (final.content finish.file.id).length < 2 ^ 63)
    (memory : ∀ call ∈ accepted, call.snapshot.count * layout.manifest.stride < 2 ^ 63) :
    ∃ reader, Reader.ofBytes overflow (final.content finish.file.id) = .ok reader ∧
      (∀ call ∈ accepted, ∃ range, reader.stepRange overflow call.step = .ok range ∧
        range.1.toNat =
          WriteCall.recordTotal (accepted.filter fun other => other.step < call.step) ∧
        range.2.toNat = range.1.toNat + call.snapshot.count) ∧
      (∀ step < layout.stepCount, (∀ call ∈ accepted, call.step ≠ step) →
        reader.stepRange overflow step = .ok (0, 0)) ∧
      reader.header.recordLength.toNat = WriteCall.recordTotal accepted ∧
      finish.nextRecord.toNat = WriteCall.recordTotal accepted ∧
      reader.verify overflow = .ok () := by
  have short : (final.content finish.file.id).length < 2 ^ 64 := Nat.lt_trans room (by decide)
  have word : WriteCall.recordTotal accepted < 2 ^ 64 := Nat.lt_trans total (by decide)
  obtain ⟨-, records, holds⟩ := holds_of_run reliable made run short
  have fits : ∀ call ∈ accepted, call.snapshot.count * layout.manifest.stride < 2 ^ 64 :=
    fun call mem => Nat.lt_trans (memory call mem) (by decide)
  have recordLength : (finish.image layout (layout.fileSchema globals created) format
      records).header.recordLength = UInt64.ofNat (WriteCall.recordTotal accepted) := by
    rw [← holds.file.header]
    exact recordLength_of_holds holds
  refine ⟨_, ofBytes_of_holds overflow (Registry.isPlanned_of_plan planned) holds short, ?_, ?_, ?_,
    ?_, ?_⟩
  · intro call mem
    obtain ⟨before, after, split⟩ := List.append_of_mem mem
    obtain ⟨smaller, last⟩ := WriteCall.filter_eq_before (split ▸ rising)
    obtain ⟨entry, read, -, -, ends, first, stop⟩ :=
      exists_entry_of_holds holds short split last (fits call mem) word
    refine ⟨_, (Reader.stepRange_of_readStep read).trans
      (StepEntry.recordRange_of_endsAtWord ends), ?_, ?_⟩
    · rw [first, split, smaller]
    · rw [stop, first]
  · intro step inside absent
    exact Reader.stepRange_of_readStep (readStep_of_holds_of_absent holds inside absent)
  · exact (congrArg UInt64.toNat recordLength).trans (UInt64.toNat_ofNat_of_lt' word)
  · rw [holds.nextRecord]
    exact UInt64.toNat_ofNat_of_lt' word
  · have tiles : StepTable.Tiles
        (finish.image layout (layout.fileSchema globals created) format records).table
        (WriteCall.recordTotal accepted) :=
      FileImage.tiles_table holds.records rising holds.counts holds.file.within word
    refine Reader.verify_eq_ok overflow tiles recordLength fun step inside => ?_
    rcases WriteCall.exists_last_or_absent accepted step with
      ⟨before, call, after, split, last, rfl⟩ | absent
    · obtain ⟨entry, read, -⟩ := exists_entry_of_holds holds short split last
        (fits call (split ▸ List.mem_append_cons_self)) word
      exact ⟨_, read⟩
    · exact ⟨_, readStep_of_holds_of_absent holds inside absent⟩

/-- The small run, whose first step shares its start with the second one, is accepted. -/
theorem verify_smallRun :
    ∃ reader, Reader.ofBytes .stops (SmallRun.final.content SmallRun.finish.file.id) = .ok reader ∧
      reader.stepRange .stops 2 = .ok (0, 0) ∧ reader.header.recordLength.toNat = 2 ∧
      reader.verify .stops = .ok () := by
  obtain ⟨reader, opened, -, empty, counted, -, verified⟩ := verify_of_run .stops
    SmallRun.plan_eq_ok SmallRun.reliable SmallRun.create_on SmallRun.writeAll_eq (by decide)
    (by decide) SmallRun.length_lt (by decide)
  exact ⟨reader, opened, empty 2 (by decide) (by decide), counted, verified⟩

end Writer

end RaggedTrajectory
