import RaggedTrajectory.Proofs.Reader.Tiling
import RaggedTrajectory.Proofs.Segments

/-!
# What a verified table covers

The table of a file that is given can hold anything. To verify it, the written entries are sorted by
their first records, and each must start where the one before it ends. So in this order the entries
are segments laid end to end, and the records up to the counter of the header are covered without
gap or overlap, whatever the order of the steps is and however many of them have no particles.

No sum of numbers of particles wraps: there are fewer than 2^32 steps, each with fewer than 2^31
particles.

* `Reader.starts_of_checkTiling`: entries that pass are laid end to end.
* `Reader.covers_of_verify`: what a verified table covers.
* `Reader.exists_owner`: every record belongs to exactly one step.
-/

namespace RaggedTrajectory

/-! ## Counting records -/

theorem sumOf_eq_of_perm {first second : List Nat} (same : first.Perm second) :
    sumOf first = sumOf second := by
  induction same with
  | nil => rfl
  | cons number _ ih => rw [sumOf_cons, sumOf_cons, ih]
  | swap number other rest => simp only [sumOf_cons]; omega
  | trans _ _ first second => exact first.trans second

theorem sumOf_le {numbers : List Nat} {bound : Nat} (small : ∀ number ∈ numbers, number ≤ bound) :
    sumOf numbers ≤ numbers.length * bound := by
  induction numbers with
  | nil => exact Nat.zero_le _
  | cons number numbers ih =>
    obtain ⟨first, others⟩ := List.forall_mem_cons.1 small
    rw [sumOf_cons, List.length_cons, Nat.succ_mul, Nat.add_comm]
    exact Nat.add_le_add (ih others) first

namespace StepEntry

/-- The number of records of a step; none if it is not written. -/
def recordCount (entry : StepEntry) : Nat :=
  if entry.written then entry.particleCount.toInt.toNat else 0

theorem recordCount_of_written {entry : StepEntry} (written : entry.written = true) :
    entry.recordCount = entry.particleCount.toInt.toNat := if_pos written

theorem recordCount_lt (entry : StepEntry) : entry.recordCount < 2 ^ 31 := by
  have bound := entry.particleCount.toInt_lt
  unfold recordCount
  split <;> omega

/-- A number of particles that is not negative is that of the word it is read as. -/
theorem toNat_count {entry : StepEntry} (written : entry.written = true)
    (counted : 0 ≤ entry.particleCount.toInt) : entry.count.toNat = entry.recordCount := by
  have wide := Int32.toInt_toInt64 entry.particleCount
  have positive : 0 ≤ entry.particleCount.toInt64 := by
    rw [Int64.le_iff_toInt_le, wide]
    exact counted
  rw [recordCount_of_written written, count, Int64.toNat_toUInt64_of_le positive, ← wide]
  rfl

/-- If the number of particles is not negative, the range of a step ends as many records behind its
start, as long as that is a word. -/
theorem extent_of_counted {entry : StepEntry} (written : entry.written = true)
    (counted : 0 ≤ entry.particleCount.toInt)
    (word : entry.recordStart.toNat + entry.recordCount < 2 ^ 64) :
    entry.EndsAtWord ∧ entry.extent.2.toNat = entry.recordStart.toNat + entry.recordCount := by
  rw [← toNat_count written counted] at word ⊢
  have ends : entry.EndsAtWord := fun _ => word
  exact ⟨ends, toNat_extent_snd written ends⟩

end StepEntry

namespace StepTable

theorem mem_occupied {table : List StepEntry} {item : Nat × StepEntry} :
    item ∈ occupied table ↔ table[item.1]? = some item.2 ∧ item.2.written = true := by
  rw [occupied, List.mem_filter, List.mem_map]
  constructor
  · rintro ⟨⟨pair, mem, rfl⟩, written⟩
    exact ⟨List.mem_zipIdx_iff_getElem?.1 mem, written⟩
  · rintro ⟨found, written⟩
    exact ⟨⟨(item.2, item.1), List.mem_zipIdx_iff_getElem?.2 found, rfl⟩, written⟩

/-- Entries that are not written have no records. -/
theorem sumOf_occupied (table : List StepEntry) :
    sumOf ((occupied table).map fun item => item.2.recordCount) =
      sumOf (table.map StepEntry.recordCount) := by
  unfold occupied
  -- The numbering of the entries does not matter for their records.
  generalize 0 = start
  induction table generalizing start with
  | nil => rfl
  | cons entry table ih =>
    rw [List.zipIdx_cons, List.map_cons, List.filter_cons, List.map_cons, sumOf_cons, ← ih]
    split
    · rw [List.map_cons, sumOf_cons]
      rfl
    · next vacant =>
        have none : entry.recordCount = 0 := if_neg vacant
        rw [none, Nat.zero_add]

end StepTable

namespace Reader

/-! ## The written steps in the order of their records -/

theorem mem_writtenSteps {reader : Reader} {item : Nat × StepEntry} :
    item ∈ reader.writtenSteps ↔
      reader.entries[item.1]? = some item.2 ∧ item.2.written = true := by
  rw [writtenSteps_eq, List.mem_mergeSort, StepTable.mem_occupied]

/-- The numbers of records of the written steps in their order. -/
def recordCounts (reader : Reader) : List Nat :=
  reader.writtenSteps.map fun item => item.2.recordCount

theorem map_recordCount_writtenSteps (reader : Reader) :
    (reader.writtenSteps.map Prod.snd).map StepEntry.recordCount = reader.recordCounts := by
  rw [List.map_map]
  rfl

/-- The entries that are laid end to end are the written ones of the table. -/
theorem mem_of_mem_writtenSteps {reader : Reader} {entry : StepEntry}
    (mem : entry ∈ reader.writtenSteps.map Prod.snd) :
    entry ∈ reader.entries ∧ entry.written = true := by
  obtain ⟨item, inside, rfl⟩ := List.mem_map.1 mem
  obtain ⟨found, written⟩ := mem_writtenSteps.1 inside
  exact ⟨List.mem_of_getElem? found, written⟩

theorem sumOf_recordCounts (reader : Reader) :
    sumOf reader.recordCounts = sumOf (reader.entries.map StepEntry.recordCount) := by
  have sorted := List.mergeSort_perm (StepTable.occupied reader.entries)
    fun a b => decide (a.2.recordStart ≤ b.2.recordStart)
  rw [← StepTable.sumOf_occupied]
  exact sumOf_eq_of_perm (sorted.map _)

/-- There are fewer than `2 ^ 32` steps, each with fewer than `2 ^ 31` records. -/
theorem sumOf_recordCounts_lt {reader : Reader}
    (size : reader.entries.length = reader.header.stepCount.toNat) :
    sumOf reader.recordCounts < 2 ^ 64 := by
  have small : ∀ number ∈ reader.entries.map StepEntry.recordCount, number ≤ 2 ^ 31 := by
    intro number mem
    obtain ⟨entry, -, rfl⟩ := List.mem_map.1 mem
    exact Nat.le_of_lt entry.recordCount_lt
  have bound := sumOf_le small
  have steps := reader.header.stepCount.toNat_lt
  rw [List.length_map, size] at bound
  rw [sumOf_recordCounts]
  omega

/-- Entries that pass are laid end to end, from the start on, as long as their sum is a word. -/
theorem starts_of_checkTiling {overflow : Overflow} {start stop : UInt64}
    {entries : List StepEntry} (tiled : checkTiling overflow start entries = .ok stop)
    (written : ∀ entry ∈ entries, entry.written = true)
    (counted : ∀ entry ∈ entries, 0 ≤ entry.particleCount.toInt)
    (word : start.toNat + sumOf (entries.map StepEntry.recordCount) < 2 ^ 64) :
    stop.toNat = start.toNat + sumOf (entries.map StepEntry.recordCount) ∧
      ∀ index entry, entries[index]? = some entry → entry.recordStart.toNat =
        start.toNat + segmentStart (entries.map StepEntry.recordCount) index := by
  induction entries generalizing start with
  | nil =>
    cases tiled
    exact ⟨rfl, fun index entry found => by cases found⟩
  | cons first entries ih =>
    obtain ⟨begins, range, own, tiled⟩ := checkTiling_cons_eq_ok_iff.1 tiled
    obtain ⟨rfl, -⟩ := StepEntry.recordRange_eq_ok_iff.1 own
    obtain ⟨firstWritten, others⟩ := List.forall_mem_cons.1 written
    obtain ⟨firstCounted, rest⟩ := List.forall_mem_cons.1 counted
    rw [List.map_cons, sumOf_cons] at word
    rw [List.map_cons, sumOf_cons]
    -- The next entry starts at the end of this one, which is a word.
    obtain ⟨-, next⟩ :=
      StepEntry.extent_of_counted firstWritten firstCounted (by rw [begins]; omega)
    rw [begins] at next
    obtain ⟨ends, starts⟩ := ih tiled others rest (by omega)
    refine ⟨by omega, ?_⟩
    rintro (_ | index) entry found
    · cases found
      rw [segmentStart_zero, Nat.add_zero, begins]
    · have own := starts index entry found
      rw [segmentStart_cons_succ]
      omega

/-! ## Verified tables -/

/-- The written steps, in the order of their records, are laid end to end, up to the counter of the
header. -/
structure Covers (reader : Reader) : Prop where
  starts : ∀ index item, reader.writtenSteps[index]? = some item →
    item.2.recordStart.toNat = segmentStart reader.recordCounts index
  total : sumOf reader.recordCounts = reader.header.recordLength.toNat

/-- A verified table covers the records up to the counter of the header, if no number of particles
is negative. -/
theorem covers_of_verify {overflow : Overflow} {reader : Reader}
    (size : reader.entries.length = reader.header.stepCount.toNat)
    (counted : ∀ entry ∈ reader.entries, entry.written = true → 0 ≤ entry.particleCount.toInt)
    (verified : reader.verify overflow = .ok ()) : reader.Covers := by
  obtain ⟨tiled, -⟩ := verify_eq_ok_iff.1 verified
  have word : (0 : UInt64).toNat + sumOf reader.recordCounts < 2 ^ 64 := by
    rw [UInt64.toNat_zero, Nat.zero_add]
    exact sumOf_recordCounts_lt size
  rw [← map_recordCount_writtenSteps] at word
  obtain ⟨ends, starts⟩ := starts_of_checkTiling tiled
    (fun entry mem => (mem_of_mem_writtenSteps mem).2)
    (fun entry mem =>
      counted entry (mem_of_mem_writtenSteps mem).1 (mem_of_mem_writtenSteps mem).2) word
  rw [map_recordCount_writtenSteps] at ends starts
  refine ⟨fun index item found => ?_, ?_⟩
  · have own := starts index item.2 (by rw [List.getElem?_map, found]; rfl)
    rwa [UInt64.toNat_zero, Nat.zero_add] at own
  · rw [ends, UInt64.toNat_zero, Nat.zero_add]

/-! ## Whose a record is -/

/-- A record belongs to a step: it is in the range of the entry. -/
def Owns (reader : Reader) (step : UInt32) (entry : StepEntry) (record : Nat) : Prop :=
  reader.entry step = .ok entry ∧ entry.recordStart.toNat ≤ record ∧
    record < entry.recordStart.toNat + entry.recordCount

section Covers

variable {reader : Reader} (covers : reader.Covers)

include covers

/-- The step of a record is one of the written ones, and the record is in its segment. -/
theorem exists_segment_of_owns {step : UInt32} {entry : StepEntry} {record : Nat}
    (owns : reader.Owns step entry record) :
    ∃ index, reader.writtenSteps[index]? = some (step.toNat, entry) ∧
      reader.recordCounts[index]? = some entry.recordCount ∧
      entry.recordStart.toNat = segmentStart reader.recordCounts index := by
  obtain ⟨found, after, before⟩ := owns
  -- A step that is not written has no records.
  have written : entry.written = true := Decidable.byContradiction fun vacant => by
    have none : entry.recordCount = 0 := if_neg vacant
    omega
  have mem : (step.toNat, entry) ∈ reader.writtenSteps :=
    mem_writtenSteps.2 ⟨entry_eq_ok_iff.1 found, written⟩
  obtain ⟨index, place⟩ := List.mem_iff_getElem?.1 mem
  exact ⟨index, place, by rw [recordCounts, List.getElem?_map, place]; rfl,
    covers.starts index _ place⟩

/-- Every record before the counter of the header belongs to exactly one step. -/
theorem exists_owner (size : reader.entries.length = reader.header.stepCount.toNat)
    {record : Nat} (inside : record < reader.header.recordLength.toNat) :
    ∃ step entry, reader.Owns step entry record ∧
      ∀ other otherEntry, reader.Owns other otherEntry record → other = step := by
  -- The record is in a segment of the row, which is the segment of a written step.
  rw [← covers.total] at inside
  obtain ⟨index, count, atIndex, after, before⟩ := exists_segment_of_lt inside
  rw [recordCounts, List.getElem?_map] at atIndex
  obtain ⟨⟨step, entry⟩, place, rfl⟩ := Option.map_eq_some_iff.1 atIndex
  obtain ⟨found, -⟩ := mem_writtenSteps.1 (List.mem_of_getElem? place)
  have onAxis : step < reader.header.stepCount.toNat :=
    size ▸ (List.getElem?_eq_some_iff.1 found).1
  have word : (UInt32.ofNat step).toNat = step :=
    UInt32.toNat_ofNat_of_lt' (Nat.lt_trans onAxis reader.header.stepCount.toNat_lt)
  have start : entry.recordStart.toNat = segmentStart reader.recordCounts index :=
    covers.starts index _ place
  refine ⟨UInt32.ofNat step, entry, ⟨entry_eq_ok_iff.2 (by rw [word]; exact found),
    by rw [start]; exact after, by rw [start]; exact before⟩, fun other otherEntry owns => ?_⟩
  obtain ⟨second, otherPlace, atSecond, otherStart⟩ := exists_segment_of_owns covers owns
  -- Two steps of one record are in one place of the row.
  have same : second = index := segment_unique atSecond
    ⟨otherStart ▸ owns.2.1, otherStart ▸ owns.2.2⟩
    (by rw [recordCounts, List.getElem?_map, place]; rfl) ⟨after, before⟩
  rw [same, place] at otherPlace
  cases otherPlace
  exact UInt32.ofNat_toNat.symm

/-- The records of a step end before the counter of the header. -/
theorem recordStart_add_le {entry : StepEntry} (mem : entry ∈ reader.entries)
    (written : entry.written = true) :
    entry.recordStart.toNat + entry.recordCount ≤ reader.header.recordLength.toNat := by
  obtain ⟨step, found⟩ := List.mem_iff_getElem?.1 mem
  have listed : (step, entry) ∈ reader.writtenSteps := mem_writtenSteps.2 ⟨found, written⟩
  obtain ⟨index, place⟩ := List.mem_iff_getElem?.1 listed
  rw [← covers.total, covers.starts index _ place]
  exact segment_le_sumOf (by rw [recordCounts, List.getElem?_map, place]; rfl)

end Covers

end Reader

end RaggedTrajectory
