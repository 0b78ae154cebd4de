import Mathlib.Data.List.Induction
import RaggedTrajectory.Snapshot

/-!
# What a cache holds

A cache is a map from steps and populations to snapshots that remembers when its entries were last
replaced. What it has for a step are the snapshots that no later one has replaced, in the order in
which they were put in.

* `SnapshotCache.isLatest_concat_iff`: which snapshots one more insertion leaves.
* `SnapshotCache.exists_lists`: what is left of a row of insertions.
* `SnapshotCache.serves_afterInsertions`: what is loaded for a step.
-/

namespace RaggedTrajectory

/-- A snapshot that is put into a cache. -/
structure Insertion where
  step : Nat
  snapshot : Snapshot

namespace SnapshotCache

/-- A cache after insertions in their order. -/
def afterInsertions (insertions : List Insertion) : SnapshotCache :=
  insertions.foldl (fun cache insertion => cache.insert insertion.step insertion.snapshot) empty

theorem afterInsertions_concat (insertions : List Insertion) (last : Insertion) :
    afterInsertions (insertions ++ [last]) =
      (afterInsertions insertions).insert last.step last.snapshot := by
  rw [afterInsertions, List.foldl_append]
  rfl

section Get

variable (cache : SnapshotCache) (step : Nat) (snapshot : Snapshot)

theorem get?_insert_self :
    (cache.insert step snapshot).get? step =
      some (replace ((cache.get? step).getD []) snapshot) :=
  Keyed.get?_insert_self _ _ _

theorem get?_insert_ne {other : Nat} (different : other ≠ step) :
    (cache.insert step snapshot).get? other = cache.get? other :=
  Keyed.get?_insert_ne _ _ different

end Get

/-! ## The last insertions -/

/-- A snapshot was put in for a step at a time, and no later one of its population was. -/
structure IsLatest (insertions : List Insertion) (step time : Nat) (snapshot : Snapshot) :
    Prop where
  inserted : insertions[time]? = some ⟨step, snapshot⟩
  last : ∀ later other, time < later → insertions[later]? = some ⟨step, other⟩ →
    other.population ≠ snapshot.population

section IsLatest

variable {insertions : List Insertion} {step time : Nat} {snapshot : Snapshot}

theorem lt_of_isLatest (latest : IsLatest insertions step time snapshot) :
    time < insertions.length :=
  (List.getElem?_eq_some_iff.1 latest.inserted).1

/-- What is in a row with one more at the end. -/
theorem getElem?_concat_eq_some_iff {last insertion : Insertion} :
    (insertions ++ [last])[time]? = some insertion ↔
      (time = insertions.length ∧ last = insertion) ∨ insertions[time]? = some insertion := by
  rcases Nat.lt_trichotomy time insertions.length with before | rfl | behind
  · rw [List.getElem?_append_left before]
    exact ⟨.inr, fun there => there.resolve_left fun same => absurd same.1 (Nat.ne_of_lt before)⟩
  · simp
  · rw [List.getElem?_eq_none (by simpa using Nat.succ_le_of_lt behind),
      List.getElem?_eq_none (Nat.le_of_lt behind)]
    exact ⟨fun none => (by cases none),
      fun there => absurd (there.resolve_right (by simp)).1 (Nat.ne_of_gt behind)⟩

/-- One more insertion is the last one of its population. The others stay what they are, unless it
is for their step and population. -/
theorem isLatest_concat_iff {last : Insertion} :
    IsLatest (insertions ++ [last]) step time snapshot ↔
      (time = insertions.length ∧ last = ⟨step, snapshot⟩) ∨
      IsLatest insertions step time snapshot ∧
        (last.step = step → last.snapshot.population ≠ snapshot.population) := by
  constructor
  · rintro ⟨inserted, newest⟩
    rcases getElem?_concat_eq_some_iff.1 inserted with added | before
    · exact .inl added
    · refine .inr ⟨⟨before, fun later other after there => ?_⟩, ?_⟩
      · exact newest later other after (getElem?_concat_eq_some_iff.2 (.inr there))
      · rintro rfl
        have inside := (List.getElem?_eq_some_iff.1 before).1
        exact newest insertions.length last.snapshot inside
          (getElem?_concat_eq_some_iff.2 (.inl ⟨rfl, rfl⟩))
  · rintro (added | ⟨latest, other⟩)
    · refine ⟨getElem?_concat_eq_some_iff.2 (.inl added), fun later another after there => ?_⟩
      have inside := (List.getElem?_eq_some_iff.1 there).1
      rw [List.length_append, List.length_singleton, ← added.1] at inside
      exact absurd inside (Nat.not_lt.2 after)
    · refine ⟨getElem?_concat_eq_some_iff.2 (.inr latest.inserted), ?_⟩
      intro later another after there
      rcases getElem?_concat_eq_some_iff.1 there with ⟨-, rfl⟩ | there
      · exact other rfl
      · exact latest.last later another after there

/-- Where something was put in for a step and a population, something was put in last. -/
theorem exists_isLatest {insertion : Insertion} (mem : insertion ∈ insertions) :
    ∃ time snapshot, IsLatest insertions insertion.step time snapshot ∧
      snapshot.population = insertion.snapshot.population := by
  -- The last insertion is the one, or it leaves the one before it as it is.
  induction insertions using List.reverseRecOn with
  | nil => cases mem
  | append_singleton insertions last ih =>
    by_cases replaces : last.step = insertion.step ∧
        last.snapshot.population = insertion.snapshot.population
    · obtain ⟨own, population⟩ := replaces
      refine ⟨insertions.length, last.snapshot, isLatest_concat_iff.2 (.inl ⟨rfl, ?_⟩), population⟩
      rw [← own]
    · rcases List.mem_append.1 mem with before | same
      · obtain ⟨time, snapshot, latest, population⟩ := ih before
        refine ⟨time, snapshot, isLatest_concat_iff.2 (.inr ⟨latest, ?_⟩), population⟩
        exact fun own also => replaces ⟨own, also.trans population⟩
      · obtain rfl := List.mem_singleton.1 same
        exact absurd ⟨rfl, rfl⟩ replaces

end IsLatest

/-! ## What is loaded -/

/-- The snapshots that were put in last for a step, one for each population, with the times at which
this was, in the order of these times. -/
structure Lists (insertions : List Insertion) (step : Nat) (timed : List (Nat × Snapshot)) :
    Prop where
  ordered : timed.Pairwise fun first second => first.1 < second.1
  latest : ∀ time snapshot,
    (time, snapshot) ∈ timed ↔ IsLatest insertions step time snapshot

section Lists

variable {insertions : List Insertion} {step : Nat} {timed : List (Nat × Snapshot)}

/-- A snapshot for the step takes the one of its population out, and is the last one. -/
theorem lists_concat_self (lists : Lists insertions step timed) (snapshot : Snapshot) :
    Lists (insertions ++ [⟨step, snapshot⟩]) step
      ((timed.filter fun entry => entry.2.population ≠ snapshot.population) ++
        [(insertions.length, snapshot)]) where
  ordered := by
    rw [List.pairwise_append]
    refine ⟨lists.ordered.sublist List.filter_sublist, List.pairwise_singleton _ _, ?_⟩
    rintro ⟨time, other⟩ mem ⟨last, _⟩ same
    obtain ⟨rfl, -⟩ := Prod.mk.inj (List.mem_singleton.1 same)
    exact lt_of_isLatest ((lists.latest time other).1 (List.mem_filter.1 mem).1)
  latest time other := by
    rw [List.mem_append, List.mem_filter, lists.latest, List.mem_singleton, isLatest_concat_iff,
      Prod.mk.injEq, Insertion.mk.injEq, decide_eq_true_eq, or_comm]
    refine or_congr ?_ (and_congr_right fun _ => ?_)
    · exact and_congr_right fun _ => ⟨fun same => ⟨rfl, same.symm⟩, fun same => same.2.symm⟩
    · exact ⟨fun different _ => different.symm, fun different => (different rfl).symm⟩

/-- A snapshot for another step changes nothing. -/
theorem lists_concat_ne (lists : Lists insertions step timed) {last : Insertion}
    (different : step ≠ last.step) : Lists (insertions ++ [last]) step timed where
  ordered := lists.ordered
  latest time other := by
    rw [lists.latest, isLatest_concat_iff]
    refine ⟨fun latest => .inr ⟨latest, fun same => absurd same.symm different⟩, ?_⟩
    rintro (⟨-, rfl⟩ | ⟨latest, -⟩)
    · exact absurd rfl different
    · exact latest

/-- Of two snapshots the second was put in later, so it is of another population. -/
theorem population_of_lists (lists : Lists insertions step timed) :
    (timed.map Prod.snd).Pairwise fun first second => first.population ≠ second.population := by
  rw [List.pairwise_map]
  apply lists.ordered.imp_of_mem
  rintro ⟨time, first⟩ ⟨later, second⟩ mem also (before : time < later)
  have inserted := ((lists.latest later second).1 also).inserted
  exact (((lists.latest time first).1 mem).last later second before inserted).symm

/-- All populations that something was put in for are there. -/
theorem exists_mem_iff_of_lists (lists : Lists insertions step timed) (population : Population) :
    (∃ snapshot ∈ timed.map Prod.snd, snapshot.population = population) ↔
      ∃ insertion ∈ insertions,
        insertion.step = step ∧ insertion.snapshot.population = population := by
  constructor
  · rintro ⟨snapshot, mem, own⟩
    obtain ⟨⟨time, other⟩, inside, rfl⟩ := List.mem_map.1 mem
    have inserted := ((lists.latest time other).1 inside).inserted
    exact ⟨_, List.mem_of_getElem? inserted, rfl, own⟩
  · rintro ⟨insertion, mem, rfl, own⟩
    obtain ⟨time, snapshot, latest, same⟩ := exists_isLatest mem
    have inside := (lists.latest time snapshot).2 latest
    exact ⟨snapshot, List.mem_map_of_mem (f := Prod.snd) inside, same.trans own⟩

theorem eq_nil_iff_of_lists (lists : Lists insertions step timed) :
    timed = [] ↔ ∀ insertion ∈ insertions, insertion.step ≠ step := by
  constructor
  · rintro rfl insertion mem own
    have none := exists_mem_iff_of_lists lists insertion.snapshot.population
    simpa using none.2 ⟨insertion, mem, own, rfl⟩
  · intro none
    apply List.eq_nil_iff_forall_not_mem.2
    -- What is listed was put in.
    rintro ⟨time, snapshot⟩ mem
    have inserted := ((lists.latest time snapshot).1 mem).inserted
    exact none _ (List.mem_of_getElem? inserted) rfl

end Lists

/-- Whatever was put in, the cache has the last snapshots of each step. -/
theorem exists_lists (insertions : List Insertion) (step : Nat) :
    ∃ timed, Lists insertions step timed ∧ (afterInsertions insertions).get? step =
      if timed = [] then none else some (timed.map Prod.snd) := by
  -- The times go with the snapshots through the induction, though the cache has none of them.
  induction insertions using List.reverseRecOn with
  | nil =>
    refine ⟨[], ⟨List.Pairwise.nil, fun time snapshot => ?_⟩, rfl⟩
    exact ⟨fun mem => (by cases mem), fun latest => absurd (lt_of_isLatest latest) (by simp)⟩
  | append_singleton insertions last ih =>
    obtain ⟨timed, lists, found⟩ := ih
    rw [afterInsertions_concat]
    by_cases own : step = last.step
    · subst own
      refine ⟨_, lists_concat_self lists last.snapshot, ?_⟩
      -- A step without an entry is replaced as one with no snapshots.
      have held : ((afterInsertions insertions).get? last.step).getD [] = timed.map Prod.snd := by
        rw [found]
        split
        · next none => rw [none]; rfl
        · rfl
      rw [get?_insert_self, held, if_neg (by simp), replace, List.filter_map, List.map_append]
      rfl
    · refine ⟨timed, lists_concat_ne lists own, ?_⟩
      rw [get?_insert_ne _ _ _ own, found]

/-- What is put in for other steps has no effect. -/
theorem get?_afterInsertions_filter (insertions : List Insertion) (step : Nat) :
    (afterInsertions (insertions.filter (·.step = step))).get? step =
      (afterInsertions insertions).get? step := by
  induction insertions using List.reverseRecOn with
  | nil => rfl
  | append_singleton insertions last ih =>
    rw [List.filter_append, afterInsertions_concat]
    by_cases own : step = last.step
    · subst own
      rw [List.filter_cons_of_pos (by simp), List.filter_nil, afterInsertions_concat,
        get?_insert_self, get?_insert_self, ih]
    · rw [List.filter_cons_of_neg (by simpa using fun same => own same.symm), List.filter_nil,
        List.append_nil, get?_insert_ne _ _ _ own, ih]

/-- What a cache gives for a step after insertions. -/
structure Serves (cache : SnapshotCache) (insertions : List Insertion) (step : Nat) : Prop where
  /-- It has nothing if nothing was put in for the step. -/
  missing : cache.load step = .error (.refused (.noCachedData step)) ↔
    ∀ insertion ∈ insertions, insertion.step ≠ step
  /-- Otherwise it has the snapshots that were put in last. -/
  loaded : (∃ insertion ∈ insertions, insertion.step = step) →
    ∃ timed, Lists insertions step timed ∧ cache.load step = .ok (timed.map Prod.snd)
  /-- They are of different populations, -/
  distinct : ∀ snapshots, cache.load step = .ok snapshots →
    snapshots.Pairwise fun first second => first.population ≠ second.population
  /-- and of all populations that something was put in for. -/
  populations : ∀ snapshots, cache.load step = .ok snapshots → ∀ population,
    (∃ snapshot ∈ snapshots, snapshot.population = population) ↔
      ∃ insertion ∈ insertions,
        insertion.step = step ∧ insertion.snapshot.population = population
  /-- Only what was put in for the step counts. -/
  others : (afterInsertions (insertions.filter (·.step = step))).load step = cache.load step

theorem serves_afterInsertions (insertions : List Insertion) (step : Nat) :
    (afterInsertions insertions).Serves insertions step := by
  obtain ⟨timed, lists, found⟩ := exists_lists insertions step
  have none := eq_nil_iff_of_lists lists
  have others : (afterInsertions (insertions.filter (·.step = step))).load step =
      (afterInsertions insertions).load step := by
    rw [load, get?_afterInsertions_filter, load]
  by_cases empty : timed = []
  · have missing : (afterInsertions insertions).load step =
        .error (.refused (.noCachedData step)) := by
      rw [load, found, if_pos empty]
    refine ⟨⟨fun _ => none.1 empty, fun _ => missing⟩, ?_, ?_, ?_, others⟩
    · rintro ⟨insertion, mem, own⟩
      exact absurd own (none.1 empty insertion mem)
    all_goals
      intro snapshots loaded
      rw [missing] at loaded
      cases loaded
  · have loaded : (afterInsertions insertions).load step = .ok (timed.map Prod.snd) := by
      rw [load, found, if_neg empty]
    refine ⟨⟨fun missing => ?_, fun free => absurd (none.2 free) empty⟩,
      fun _ => ⟨timed, lists, loaded⟩, ?_, ?_, others⟩
    · rw [loaded] at missing
      cases missing
    all_goals
      intro snapshots same
      obtain rfl := Except.ok.inj (loaded.symm.trans same)
    · exact population_of_lists lists
    · exact exists_mem_iff_of_lists lists

end SnapshotCache

end RaggedTrajectory
