import RaggedTrajectory.StepTable

/-!
# The records of a step

The records of a written step go from its first one up to the sum of that and the number of
particles. The number is signed in the table and widened with its sign, so an entry can ask for more
records than a word counts. `StepEntry.extent` is the range by the low bits of that sum. It is what
a reader reports, except that a build with overflow checks reports none where the sum is too large.

* `StepEntry.recordRange_eq`: the range that is reported, in either build.
* `StepEntry.extent_le_iff`: a range by low bits is in order if its end is exact.
-/

namespace RaggedTrajectory

namespace StepEntry

/-- The first record of a step and the low bits of the one after its last. -/
def extent (entry : StepEntry) : UInt64 × UInt64 :=
  if entry.written then (entry.recordStart, entry.recordStart + entry.count) else (0, 0)

/-- Whether the records of a step, if it is written, end at a word. -/
def EndsAtWord (entry : StepEntry) : Prop :=
  entry.written = true → entry.recordStart.toNat + entry.count.toNat < 2 ^ 64

instance (entry : StepEntry) : Decidable entry.EndsAtWord := inferInstanceAs (Decidable (_ → _))

variable {overflow : Overflow} {entry : StepEntry}

theorem extent_of_written (written : entry.written = true) :
    entry.extent = (entry.recordStart, entry.recordStart + entry.count) := if_pos written

/-- The range of a step, in either build. -/
theorem recordRange_eq (overflow : Overflow) (entry : StepEntry) :
    entry.recordRange overflow =
      if overflow = .stops ∧ ¬entry.EndsAtWord then .error .overflow else .ok entry.extent := by
  unfold recordRange extent EndsAtWord Overflow.add
  by_cases written : entry.written = true
  case neg => simp [written]
  case pos =>
    simp only [written, if_true, forall_const, Nat.not_lt]
    split <;> rfl

theorem recordRange_eq_ok_iff {range : UInt64 × UInt64} :
    entry.recordRange overflow = .ok range ↔
      range = entry.extent ∧ (overflow = .stops → entry.EndsAtWord) := by
  rw [recordRange_eq, Overflow.guarded_eq_ok_iff, Decidable.not_not]

theorem recordRange_of_endsAtWord (fits : entry.EndsAtWord) :
    entry.recordRange overflow = .ok entry.extent :=
  recordRange_eq_ok_iff.mpr ⟨rfl, fun _ => fits⟩

theorem toNat_extent_snd (written : entry.written = true) (fits : entry.EndsAtWord) :
    entry.extent.2.toNat = entry.recordStart.toNat + entry.count.toNat := by
  rw [extent_of_written written, UInt64.toNat_add]
  exact Nat.mod_eq_of_lt (fits written)

/-- A range by low bits is in order exactly if it ends at a word: a wrapped end is before the
start. -/
theorem extent_le_iff : entry.extent.1 ≤ entry.extent.2 ↔ entry.EndsAtWord := by
  by_cases written : entry.written = true
  case neg => simp [extent, EndsAtWord, written]
  case pos =>
    have start := entry.recordStart.toNat_lt
    have count := entry.count.toNat_lt
    rw [extent_of_written written, UInt64.le_iff_toNat_le, UInt64.toNat_add]
    simp only [EndsAtWord, written, forall_const]
    omega

/-- The range that is reported depends on the range by low bits alone. -/
theorem recordRange_congr {other : StepEntry} (same : entry.extent = other.extent)
    (overflow : Overflow) : entry.recordRange overflow = other.recordRange overflow := by
  simp only [recordRange_eq, ← extent_le_iff, same]

end StepEntry

end RaggedTrajectory
