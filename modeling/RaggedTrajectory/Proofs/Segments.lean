import RaggedTrajectory.Number.Natural

/-!
# Segments laid end to end

The columns of a raw payload and the steps on the record axis are laid out in the same way: each one
starts where those before it end. Such a row of segments has no gaps, so every place before its end
is in a segment, and the segments do not overlap, so it is in one only.

* `exists_segment_of_lt`, `segment_unique`: every place is in exactly one segment.
* `getElem?_flatten_segment`: what is found at a place of a segment.
-/

namespace RaggedTrajectory

/-- Where a segment starts: behind those before it. -/
def segmentStart (lengths : List Nat) (index : Nat) : Nat := sumOf (lengths.take index)

@[simp]
theorem segmentStart_zero (lengths : List Nat) : segmentStart lengths 0 = 0 := rfl

@[simp]
theorem segmentStart_cons_succ (length : Nat) (lengths : List Nat) (index : Nat) :
    segmentStart (length :: lengths) (index + 1) = length + segmentStart lengths index := rfl

/-- The last segment ends where all of them do. -/
theorem segmentStart_length (lengths : List Nat) :
    segmentStart lengths lengths.length = sumOf lengths := by
  rw [segmentStart, List.take_length]

/-- A segment starts where the one before it ends. -/
theorem segmentStart_succ {lengths : List Nat} {index length : Nat}
    (found : lengths[index]? = some length) :
    segmentStart lengths (index + 1) = segmentStart lengths index + length := by
  rw [segmentStart, List.take_add_one, found, sumOf_append]
  rfl

/-- Later segments start later. -/
theorem segmentStart_le (lengths : List Nat) {index later : Nat} (order : index ≤ later) :
    segmentStart lengths index ≤ segmentStart lengths later := by
  induction lengths generalizing index later with
  | nil => simp [segmentStart]
  | cons length lengths ih =>
    cases index with
    | zero => exact Nat.zero_le _
    | succ index =>
      obtain ⟨later, rfl⟩ : ∃ before, later = before + 1 := ⟨later - 1, by omega⟩
      exact Nat.add_le_add_left (ih (Nat.le_of_succ_le_succ order)) length

/-- No segment ends behind all of them. -/
theorem segment_le_sumOf {lengths : List Nat} {index length : Nat}
    (found : lengths[index]? = some length) :
    segmentStart lengths index + length ≤ sumOf lengths := by
  -- The next segment starts where this one ends, and none starts behind the end.
  have inside : index < lengths.length := (List.getElem?_eq_some_iff.1 found).1
  rw [← segmentStart_succ found, ← segmentStart_length]
  exact segmentStart_le lengths inside

/-- Every place before the end is in a segment. -/
theorem exists_segment_of_lt {lengths : List Nat} {place : Nat} (inside : place < sumOf lengths) :
    ∃ index length, lengths[index]? = some length ∧ segmentStart lengths index ≤ place ∧
      place < segmentStart lengths index + length := by
  induction lengths generalizing place with
  | nil => exact absurd inside (Nat.not_lt_zero place)
  | cons length lengths ih =>
    rw [sumOf_cons] at inside
    -- The place is in the first segment, or it is that much further back among the others.
    by_cases first : place < length
    · exact ⟨0, length, rfl, Nat.zero_le _, by rw [segmentStart_zero, Nat.zero_add]; exact first⟩
    · obtain ⟨index, own, found, after, before⟩ := ih (show place - length < sumOf lengths by omega)
      refine ⟨index + 1, own, found, ?_, ?_⟩ <;> rw [segmentStart_cons_succ] <;> omega

/-- No place is in two segments. -/
theorem segment_unique {lengths : List Nat} {place first second firstLength secondLength : Nat}
    (atFirst : lengths[first]? = some firstLength)
    (inFirst : segmentStart lengths first ≤ place ∧
      place < segmentStart lengths first + firstLength)
    (atSecond : lengths[second]? = some secondLength)
    (inSecond : segmentStart lengths second ≤ place ∧
      place < segmentStart lengths second + secondLength) : first = second := by
  -- A segment that starts later starts behind the place.
  have ends := segmentStart_succ atFirst
  have others := segmentStart_succ atSecond
  rcases Nat.lt_trichotomy first second with before | same | after
  · have order := segmentStart_le lengths (show first + 1 ≤ second from before)
    omega
  · exact same
  · have order := segmentStart_le lengths (show second + 1 ≤ first from after)
    omega

/-- Segments that are so many times as long end so many times as far. -/
theorem sumOf_map_mul (lengths : List Nat) (width : Nat) :
    sumOf (lengths.map (· * width)) = sumOf lengths * width := by
  induction lengths with
  | nil => rw [List.map_nil, sumOf_nil, Nat.zero_mul]
  | cons length lengths ih => rw [List.map_cons, sumOf_cons, ih, sumOf_cons, Nat.add_mul]

theorem segmentStart_map_mul (lengths : List Nat) (width index : Nat) :
    segmentStart (lengths.map (· * width)) index = segmentStart lengths index * width := by
  rw [segmentStart, ← List.map_take, sumOf_map_mul, segmentStart]

theorem length_flatten_eq_sumOf {α : Type} (rows : List (List α)) :
    rows.flatten.length = sumOf (rows.map List.length) := by
  induction rows with
  | nil => rfl
  | cons row rows ih => rw [List.flatten_cons, List.length_append, ih, List.map_cons, sumOf_cons]

/-- A place of a row is found behind the rows before it. -/
theorem getElem?_flatten_segment {α : Type} {rows : List (List α)} {index : Nat} {row : List α}
    (found : rows[index]? = some row) {place : Nat} (inside : place < row.length) :
    rows.flatten[segmentStart (rows.map List.length) index + place]? = row[place]? := by
  induction rows generalizing index with
  | nil => cases found
  | cons first rows ih =>
    cases index with
    | zero =>
      cases found
      rw [List.map_cons, segmentStart_zero, Nat.zero_add, List.flatten_cons,
        List.getElem?_append_left inside]
    | succ index =>
      rw [List.map_cons, segmentStart_cons_succ, List.flatten_cons, Nat.add_assoc,
        List.getElem?_append_right (Nat.le_add_right _ _), Nat.add_sub_cancel_left]
      exact ih found

end RaggedTrajectory
