import RaggedTrajectory.Proofs.Reader.WriteOrder

/-!
# Steps without particles

A step without particles starts at the same record as the step that is written next. To verify a
file, a reader sorts the steps by their first records, and where these are the same the smaller step
comes first. So a step without particles is put behind the one written after it if its number is
larger, and as that one has ended further on, the file is refused, although its record axis has no
gap. Such steps are the only obstacle: all other runs are accepted, in whatever order their steps
are written.

* `Reader.pairwise_of_checkTiling`: entries that pass end before the next one starts.
* `Reader.checkTiling_item`: in the order of the calls, the entries pass.
* `Reader.emptyStepsPrecede_of_pairwise`, `pairwise_of_emptyStepsPrecede`: when a reader finds each
  step behind the one before it.
* `Writer.verify_of_distinct_run`: which files of a run are accepted.
-/

namespace RaggedTrajectory

/-- No two items are in one order and in the other. -/
theorem not_pair_sublist_swap {α : Type} {items : List α} {a b : α} (distinct : items.Nodup)
    (order : [a, b].Sublist items) : ¬[b, a].Sublist items := by
  induction items with
  | nil => cases order
  | cons first items ih =>
    obtain ⟨apart, others⟩ := List.nodup_cons.1 distinct
    intro swapped
    rcases List.sublist_cons_iff.1 order with inside | ⟨rest, same, behind⟩
    · rcases List.sublist_cons_iff.1 swapped with within | ⟨rest, same, -⟩
      · exact ih others inside within
      · -- The second item would be the first one of the row, and another one as well.
        cases same
        exact apart (inside.subset (List.mem_cons_of_mem _ List.mem_cons_self))
    · cases same
      rcases List.sublist_cons_iff.1 swapped with within | ⟨rest, same, within⟩
      · exact apart (within.subset (List.mem_cons_of_mem _ List.mem_cons_self))
      · cases same
        exact apart (within.subset List.mem_cons_self)

namespace WriteCall

/-- The step of every call without particles is before that of the next call with particles. -/
def EmptyStepsPrecede (calls : List WriteCall) : Prop :=
  ∀ before call between next after, calls = before ++ call :: (between ++ next :: after) →
    recordTotal (call :: between) = 0 → next.snapshot.count ≠ 0 → call.step < next.step

/-- Where steps rise, those without particles are no exception. -/
theorem emptyStepsPrecede_of_rising {calls : List WriteCall}
    (rising : calls.Pairwise fun first second => first.step < second.step) :
    EmptyStepsPrecede calls := by
  intro before call between next after split _ _
  rw [split] at rising
  obtain ⟨-, behind, -⟩ := List.pairwise_append.1 rising
  obtain ⟨above, -⟩ := List.pairwise_cons.1 behind
  exact above next List.mem_append_cons_self

end WriteCall

namespace Reader

/-! ## Tiling -/

/-- Entries that pass end before the next one starts. -/
theorem pairwise_of_checkTiling {overflow : Overflow} {start stop : UInt64}
    {entries : List StepEntry} (written : ∀ entry ∈ entries, entry.written = true)
    (ends : ∀ entry ∈ entries, entry.EndsAtWord)
    (tiled : checkTiling overflow start entries = .ok stop) :
    (entries.Pairwise fun a b => a.extent.2 ≤ b.extent.1) ∧
      ∀ entry ∈ entries, start ≤ entry.extent.1 := by
  induction entries generalizing start with
  | nil => exact ⟨List.Pairwise.nil, fun entry mem => by cases mem⟩
  | cons first entries ih =>
    obtain ⟨firstWritten, others⟩ := List.forall_mem_cons.1 written
    obtain ⟨firstEnds, rest⟩ := List.forall_mem_cons.1 ends
    obtain ⟨begins, range, same, tiled⟩ := checkTiling_cons_eq_ok_iff.1 tiled
    obtain ⟨rfl, -⟩ := StepEntry.recordRange_eq_ok_iff.1 same
    have own : first.extent.1 = start := by
      rw [StepEntry.extent_of_written firstWritten, begins]
    obtain ⟨pairs, behind⟩ := ih others rest tiled
    refine ⟨List.pairwise_cons.2 ⟨behind, pairs⟩, List.forall_mem_cons.2 ⟨?_, ?_⟩⟩
    · exact own ▸ UInt64.le_refl _
    · intro entry mem
      exact own ▸ UInt64.le_trans (StepEntry.extent_le_iff.2 firstEnds) (behind entry mem)

/-- Only the ranges of written entries are looked at. -/
theorem checkTiling_congr {overflow : Overflow} {start : UInt64} {first second : List StepEntry}
    (firstWritten : ∀ entry ∈ first, entry.written = true)
    (secondWritten : ∀ entry ∈ second, entry.written = true)
    (same : first.map StepEntry.extent = second.map StepEntry.extent) :
    checkTiling overflow start first = checkTiling overflow start second := by
  induction first generalizing start second with
  | nil =>
    rw [List.map_nil] at same
    rw [List.map_eq_nil_iff.1 same.symm]
  | cons entry first ih =>
    obtain ⟨other, rest, rfl, range, ranges⟩ := List.map_eq_cons_iff.1 same.symm
    obtain ⟨own, entries⟩ := List.forall_mem_cons.1 firstWritten
    obtain ⟨others, remaining⟩ := List.forall_mem_cons.1 secondWritten
    have begins : entry.recordStart = other.recordStart := by
      have starts := congrArg Prod.fst range
      rw [StepEntry.extent_of_written own, StepEntry.extent_of_written others] at starts
      exact starts.symm
    rw [checkTiling, checkTiling, begins, StepEntry.recordRange_congr range]
    simp only [ih entries remaining ranges.symm]

/-- What does not pass is reported as a gap. -/
theorem exists_recordGap_of_checkTiling {overflow : Overflow} {start : UInt64}
    {entries : List StepEntry} (ends : ∀ entry ∈ entries, entry.EndsAtWord)
    (refused : ∀ stop, checkTiling overflow start entries ≠ .ok stop) :
    ∃ expected found,
      checkTiling overflow start entries = .error (.corrupt (.recordGap expected found)) := by
  induction entries generalizing start with
  | nil => exact absurd rfl (refused start)
  | cons entry entries ih =>
    rw [checkTiling] at refused ⊢
    split
    · exact ⟨_, _, rfl⟩
    · next begins =>
      obtain ⟨own, others⟩ := List.forall_mem_cons.1 ends
      rw [if_neg begins, StepEntry.recordRange_of_endsAtWord own, Error.ok_bind] at refused
      rw [StepEntry.recordRange_of_endsAtWord own, Error.ok_bind]
      exact ih others refused

/-! ## The order in which a reader finds the steps -/

section HasCalls

variable {reader : Reader} {manifest : Manifest} {calls : List WriteCall}
  (has : reader.HasCalls manifest calls)

include has

/-- In the order of the calls, the entries pass. -/
theorem checkTiling_item (overflow : Overflow) :
    checkTiling overflow 0 (calls.map fun call => (reader.item call).2) =
      .ok (UInt64.ofNat (WriteCall.recordTotal calls)) := by
  -- The induction is on the calls that are left; those before them end where the next one starts.
  suffices rest : ∀ before after, calls = before ++ after →
      checkTiling overflow (UInt64.ofNat (WriteCall.recordTotal before))
        (after.map fun call => (reader.item call).2) =
          .ok (UInt64.ofNat (WriteCall.recordTotal calls)) from rest [] calls rfl
  intro before after
  induction after generalizing before with
  | nil =>
    intro split
    rw [split, List.append_nil]
    rfl
  | cons call after ih =>
    intro split
    have mem : call ∈ calls := split ▸ List.mem_append_cons_self
    obtain ⟨first, stop⟩ := has.range before call after split
    have start : (reader.item call).2.recordStart =
        UInt64.ofNat (WriteCall.recordTotal before) := by
      rw [extent_fst has mem] at first
      rw [← first, UInt64.ofNat_toNat]
    have next : (reader.item call).2.extent.2 =
        UInt64.ofNat (WriteCall.recordTotal (before ++ [call])) := by
      rw [WriteCall.recordTotal_concat, ← stop, UInt64.ofNat_toNat]
    rw [List.map_cons, checkTiling, if_neg (not_not_intro start),
      StepEntry.recordRange_of_endsAtWord (endsAtWord_item has mem), Error.ok_bind, next]
    exact ih (before ++ [call]) (by rw [split, List.append_assoc, List.singleton_append])

theorem nodup_writtenSteps : reader.writtenSteps.Nodup := by
  refine (perm_writtenSteps has).nodup_iff.2 (List.pairwise_map.2 ?_)
  refine (List.pairwise_map.1 has.distinct).imp fun {a b} apart same => ?_
  exact apart (UInt32.toNat_inj.1 (congrArg Prod.fst same))

/-- Of two steps with the same first record, the smaller one is found first. -/
theorem pair_sublist_writtenSteps {first second : WriteCall} (left : first ∈ calls)
    (right : second ∈ calls) (below : first.step < second.step)
    (order : (reader.item first).2.recordStart ≤ (reader.item second).2.recordStart) :
    [reader.item first, reader.item second].Sublist reader.writtenSteps := by
  have inside : ∀ call ∈ calls, reader.item call ∈ StepTable.occupied reader.entries :=
    fun call mem => has.steps.mem_iff.2 (List.mem_map_of_mem mem)
  have apart : reader.item first ≠ reader.item second := fun same =>
    UInt32.lt_irrefl _ (UInt32.toNat_inj.1 (congrArg Prod.fst same) ▸ below)
  rcases pair_sublist_or (inside first left) (inside second right) apart with rises | falls
  · -- The sort is stable, so a pair that is in order stays as it is in the table.
    exact List.pair_sublist_mergeSort recordStart_trans recordStart_total (decide_eq_true order)
      rises
  · have table := List.pairwise_iff_forall_sublist.1
      (StepTable.pairwise_occupied reader.entries) falls
    exact absurd (UInt32.lt_iff_toNat_lt.1 below) (Nat.lt_asymm table)

/-- If each step is found behind the one before it, those without particles precede the ones that
were written after them. -/
theorem emptyStepsPrecede_of_pairwise
    (found : reader.writtenSteps.Pairwise fun a b => a.2.extent.2 ≤ b.2.extent.1) :
    WriteCall.EmptyStepsPrecede calls := by
  intro before call between next after split none some
  have left : call ∈ calls := split ▸ List.mem_append_cons_self
  have right : next ∈ calls := by
    rw [split]
    exact List.mem_append_right _ (List.mem_cons_of_mem _ List.mem_append_cons_self)
  obtain ⟨atCall, atNext⟩ := recordStart_of_split has split
  rw [none, Nat.add_zero] at atNext
  -- If the step with particles were the smaller one, it would be found first.
  refine Classical.byContradiction fun above => ?_
  have apart : next.step ≠ call.step :=
    ne_of_nodup_map has.distinct split next List.mem_append_cons_self
  have below : next.step < call.step := by
    rcases UInt32.lt_or_eq_of_le (UInt32.not_lt.1 above) with below | same
    · exact below
    · exact absurd same apart
  have first := pair_sublist_writtenSteps has right left below
    (UInt64.le_iff_toNat_le.2 (Nat.le_of_eq (atNext.trans atCall.symm)))
  have ends := UInt64.le_iff_toNat_le.1 (List.pairwise_iff_forall_sublist.1 found first)
  rw [extent_snd has right, extent_fst has left, atNext, atCall] at ends
  omega

/-- If the steps without particles precede the ones that were written after them, each step is found
behind the one before it. -/
theorem pairwise_of_emptyStepsPrecede (precede : WriteCall.EmptyStepsPrecede calls) :
    reader.writtenSteps.Pairwise fun a b => a.2.extent.2 ≤ b.2.extent.1 := by
  refine List.pairwise_iff_forall_sublist.2 fun {a b} order => ?_
  have members := order.subset
  obtain ⟨first, left, rfl⟩ := List.mem_map.1 ((perm_writtenSteps has).mem_iff.1
    (members List.mem_cons_self))
  obtain ⟨second, right, rfl⟩ := List.mem_map.1 ((perm_writtenSteps has).mem_iff.1
    (members (List.mem_cons_of_mem _ List.mem_cons_self)))
  have sorted := List.pairwise_iff_forall_sublist.1 (pairwise_writtenSteps reader) order
  have distinct := nodup_writtenSteps has
  have apart : first ≠ second := by
    rintro rfl
    exact List.pairwise_iff_forall_sublist.1 distinct order rfl
  rcases pair_sublist_or left right apart with made | made
  · exact extent_le_of_sublist has made
  -- They were written the other way round, so neither the second one nor any in between has
  -- particles.
  obtain ⟨before, between, after, split⟩ := exists_split_of_pair_sublist made
  obtain ⟨atSecond, atFirst⟩ := recordStart_of_split has split
  have none : WriteCall.recordTotal (second :: between) = 0 := by omega
  rw [UInt64.le_iff_toNat_le, extent_snd has left, extent_fst has right, atSecond,
    atFirst, none]
  by_cases some : first.snapshot.count = 0
  · omega
  · have below := precede before second between first after split none some
    have swapped := pair_sublist_writtenSteps has right left below
      (UInt64.le_iff_toNat_le.2 (by omega))
    exact absurd order (not_pair_sublist_swap distinct swapped)

/-- Steps that are found one behind the other have the ranges of the calls in their order. -/
theorem map_extent_writtenSteps
    (found : reader.writtenSteps.Pairwise fun a b => a.2.extent.2 ≤ b.2.extent.1) :
    reader.writtenSteps.map (fun item => item.2.extent) =
      calls.map fun call => (reader.item call).2.extent := by
  have listed : (reader.writtenSteps.map fun item => item.2.extent).Perm
      (calls.map fun call => (reader.item call).2.extent) := by
    have items := (perm_writtenSteps has).map fun item => item.2.extent
    rwa [List.map_map] at items
  have ordered : (calls.map fun call => (reader.item call).2.extent).Pairwise
      fun a b => a.2 ≤ b.1 :=
    List.pairwise_map.2
      (List.pairwise_iff_forall_sublist.2 fun order => extent_le_of_sublist has order)
  have each : ∀ range ∈ calls.map fun call => (reader.item call).2.extent,
      range.1 ≤ range.2 := by
    intro range mem
    obtain ⟨call, inside, rfl⟩ := List.mem_map.1 mem
    exact StepEntry.extent_le_iff.2 (endsAtWord_item has inside)
  -- Two ranges each of which ends before the other starts are empty and at the same place.
  refine List.Perm.eq_of_pairwise ?_ (List.pairwise_map.2 found) ordered listed
  intro a b first second below above
  have own := each a (listed.mem_iff.1 first)
  have other := each b second
  rw [UInt64.le_iff_toNat_le] at own other below above
  exact Prod.ext (UInt64.toNat_inj.1 (by omega)) (UInt64.toNat_inj.1 (by omega))

/-- The ranges of all written steps are exact. -/
theorem endsAtWord_writtenSteps :
    ∀ entry ∈ reader.writtenSteps.map Prod.snd, entry.EndsAtWord := by
  intro entry mem
  obtain ⟨item, inside, rfl⟩ := List.mem_map.1 mem
  obtain ⟨call, own, rfl⟩ := List.mem_map.1 ((perm_writtenSteps has).mem_iff.1 inside)
  exact endsAtWord_item has own

/-- The written steps pass exactly if those without particles precede the ones that were written
after them. -/
theorem checkTiling_writtenSteps_iff (overflow : Overflow) (stop : UInt64) :
    checkTiling overflow 0 (reader.writtenSteps.map Prod.snd) = .ok stop ↔
      WriteCall.EmptyStepsPrecede calls ∧
        stop = UInt64.ofNat (WriteCall.recordTotal calls) := by
  have written : ∀ entry ∈ reader.writtenSteps.map Prod.snd, entry.written = true :=
    fun entry mem => (mem_of_mem_writtenSteps mem).2
  have passes : WriteCall.EmptyStepsPrecede calls →
      checkTiling overflow 0 (reader.writtenSteps.map Prod.snd) =
        .ok (UInt64.ofNat (WriteCall.recordTotal calls)) := by
    intro precede
    have ranges := map_extent_writtenSteps has (pairwise_of_emptyStepsPrecede has precede)
    rw [← checkTiling_item has overflow]
    refine checkTiling_congr written ?_ ?_
    · intro entry mem
      obtain ⟨call, own, rfl⟩ := List.mem_map.1 mem
      exact written_item has own
    · rw [List.map_map, List.map_map]
      exact ranges
  constructor
  · intro tiled
    -- Entries that pass end before the next one starts, and that is the condition on the calls.
    have precede : WriteCall.EmptyStepsPrecede calls := by
      exact emptyStepsPrecede_of_pairwise has (List.pairwise_map.1
        (pairwise_of_checkTiling written (endsAtWord_writtenSteps has) tiled).1)
    rw [passes precede] at tiled
    cases tiled
    exact ⟨precede, rfl⟩
  · rintro ⟨precede, rfl⟩
    exact passes precede

/-- A file whose steps can all be read is accepted, unless a step without particles is found behind
the one that was written after it: that is reported as a gap. -/
theorem verify_of_hasCalls (overflow : Overflow)
    (length : reader.header.recordLength = UInt64.ofNat (WriteCall.recordTotal calls))
    (readable : ∀ step < reader.header.stepCount, ∃ result, reader.readStep step = .ok result) :
    (WriteCall.EmptyStepsPrecede calls → reader.verify overflow = .ok ()) ∧
      (¬WriteCall.EmptyStepsPrecede calls → ∃ expected found,
        reader.verify overflow = .error (.corrupt (.recordGap expected found))) := by
  have tiling := checkTiling_writtenSteps_iff has overflow
  refine ⟨fun precede => ?_, fun late => ?_⟩
  · exact verify_eq_ok_iff.2 ⟨(tiling _).2 ⟨precede, length⟩, readable⟩
  · obtain ⟨expected, found, gap⟩ := exists_recordGap_of_checkTiling
      (endsAtWord_writtenSteps has) fun stop tiled => late ((tiling stop).1 tiled).1
    refine ⟨expected, found, ?_⟩
    rw [verify, gap]
    rfl

end HasCalls

end Reader

namespace Writer

section Holds

variable {layout : RunLayout} {schema : FileSchema} {format : FileFormat}
  {accepted : List WriteCall} {records : List StepRecord} {writer : Writer} {disk : Disk}

/-- Every step of a file can be read, whether it is written or not. -/
theorem exists_readStep_of_holds (holds : writer.Holds layout schema format accepted records disk)
    (room : (disk.content writer.file.id).length < 2 ^ 64)
    (fits : ∀ call ∈ accepted, call.snapshot.count * layout.manifest.stride < 2 ^ 64)
    (total : WriteCall.recordTotal accepted < 2 ^ 64) :
    ∀ step < layout.stepCount, ∃ result, ((writer.image layout schema format records).reader schema
      layout.manifest.asDeclared).readStep step = .ok result := by
  intro step inside
  rcases WriteCall.exists_last_or_absent accepted step with
    ⟨before, call, after, split, last, rfl⟩ | absent
  · obtain ⟨entry, read, -⟩ := exists_entry_of_holds holds room split last
      (fits call (split ▸ List.mem_append_cons_self)) total
    exact ⟨_, read⟩
  · exact ⟨_, readStep_of_holds_of_absent holds inside absent⟩

theorem verify_of_holds (overflow : Overflow)
    (holds : writer.Holds layout schema format accepted records disk)
    (distinct : (accepted.map WriteCall.step).Nodup)
    (room : (disk.content writer.file.id).length < 2 ^ 64)
    (fits : ∀ call ∈ accepted, call.snapshot.count * layout.manifest.stride < 2 ^ 64) :
    (WriteCall.EmptyStepsPrecede accepted → ((writer.image layout schema format records).reader
      schema layout.manifest.asDeclared).verify overflow = .ok ()) ∧
    (¬WriteCall.EmptyStepsPrecede accepted → ∃ expected found,
      ((writer.image layout schema format records).reader schema
        layout.manifest.asDeclared).verify overflow =
          .error (.corrupt (.recordGap expected found))) := by
  have total : WriteCall.recordTotal accepted < 2 ^ 64 :=
    Nat.lt_trans (recordTotal_lt_of_distinct holds distinct) (by decide)
  have counter : (writer.image layout schema format records).header.recordLength =
      UInt64.ofNat (WriteCall.recordTotal accepted) := by
    rw [← holds.file.header]
    exact recordLength_of_holds holds
  exact Reader.verify_of_hasCalls (hasCalls_of_holds holds distinct room fits) overflow counter
    (exists_readStep_of_holds holds room fits total)

end Holds

/-- Which files of a run are accepted. In a planned run whose accepted calls are for distinct steps,
in whatever order, the file is accepted if the steps without particles precede the ones that were
written after them; if not, a gap is reported that the record axis does not have. The file, as well
as the values that a call puts together in memory, is shorter than `2 ^ 63` bytes. -/
theorem verify_of_distinct_run (overflow : Overflow) {parameters : RunParameters} {extended : Bool}
    {layout : RunLayout} {path : Path} {population : Population} {globals : GlobalAttributes}
    {created : Timestamp} {format : FileFormat} {policy : CompressionPolicy}
    {disk start final : Disk} {writer finish : Writer} {calls accepted : List WriteCall}
    (planned : Registry.default.plan parameters extended = .ok layout)
    (reliable : disk.IsReliable)
    (made : (create path population layout (layout.fileSchema globals created) format policy).on
      disk = (.ok writer, start))
    (run : writeAll layout calls writer start = (accepted, finish, final))
    (distinct : (accepted.map WriteCall.step).Nodup)
    (room : (final.content finish.file.id).length < 2 ^ 63)
    (memory : ∀ call ∈ accepted, call.snapshot.count * layout.manifest.stride < 2 ^ 63) :
    ∃ reader, Reader.ofBytes overflow (final.content finish.file.id) = .ok reader ∧
      (WriteCall.EmptyStepsPrecede accepted → reader.verify overflow = .ok ()) ∧
      (¬WriteCall.EmptyStepsPrecede accepted → ∃ expected found,
        reader.verify overflow = .error (.corrupt (.recordGap expected found))) := by
  have short : (final.content finish.file.id).length < 2 ^ 64 := Nat.lt_trans room (by decide)
  obtain ⟨-, records, holds⟩ := holds_of_run reliable made run short
  have fits : ∀ call ∈ accepted, call.snapshot.count * layout.manifest.stride < 2 ^ 64 :=
    fun call mem => Nat.lt_trans (memory call mem) (by decide)
  exact ⟨_, ofBytes_of_holds overflow (Registry.isPlanned_of_plan planned) holds short,
    verify_of_holds overflow holds distinct short fits⟩

/-- The small run is accepted: its first step has no particles and is written first. -/
theorem verify_of_distinct_smallRun :
    ∃ reader, Reader.ofBytes .stops (SmallRun.final.content SmallRun.finish.file.id) = .ok reader ∧
      reader.verify .stops = .ok () := by
  obtain ⟨reader, opened, passes, -⟩ := verify_of_distinct_run .stops SmallRun.plan_eq_ok
    SmallRun.reliable SmallRun.create_on SmallRun.writeAll_eq (by decide) SmallRun.length_lt
    (by decide)
  exact ⟨reader, opened, passes (WriteCall.emptyStepsPrecede_of_rising (by decide))⟩

/-- A file that is refused though its two steps are distinct and lie one behind the other: the
second step has no particles and is written before the first one. -/
theorem verify_fallingCalls :
    writeAll SmallRun.layout FallingCalls.calls SmallRun.writer SmallRun.start =
      (FallingCalls.calls, FallingCalls.finish, FallingCalls.final) ∧
    (FallingCalls.calls.map WriteCall.step).Nodup ∧
    WriteCall.recordTotal FallingCalls.calls = 2 ∧
    ∃ reader, Reader.ofBytes .stops (FallingCalls.final.content FallingCalls.finish.file.id) =
        .ok reader ∧
      ∃ expected found, reader.verify .stops = .error (.corrupt (.recordGap expected found)) := by
  have short := Nat.lt_trans FallingCalls.length_lt (show 2 ^ 63 < 2 ^ 64 by decide)
  obtain ⟨-, records, holds⟩ := holds_of_run SmallRun.reliable SmallRun.create_on
    FallingCalls.writeAll_eq short
  have late : ¬WriteCall.EmptyStepsPrecede FallingCalls.calls := fun precede =>
    absurd (precede [] _ [] _ [] rfl (by decide) (by decide)) (by decide)
  exact ⟨FallingCalls.writeAll_eq, by decide, by decide, _,
    ofBytes_of_holds .stops (Registry.isPlanned_of_plan SmallRun.plan_eq_ok) holds short,
    (verify_of_holds .stops holds (by decide) short (by decide)).2 late⟩

end Writer

end RaggedTrajectory
