import RaggedTrajectory.Error

/-!
# Sums of words

The sum of two words of 64 bits can be too large for a word. A program that is built with overflow
checks stops there; one that is built without them goes on with the low bits. `Overflow` says how
the program is built.

* `Overflow.guarded_eq_ok_iff`: when a value is given that needs sums to fit.
* `Overflow.add_eq_ok_iff`: a sum that is given has the low bits; where sums stop, it is exact.
* `Overflow.add_of_lt`: a sum below `2 ^ 64` is the same in every build.
-/

namespace RaggedTrajectory

/-- What the program does at a sum that is too large for a word. -/
inductive Overflow where
  /-- It stops. -/
  | stops
  /-- It goes on with the low bits. -/
  | wraps
  deriving DecidableEq, Repr

namespace Overflow

/-- The sum of two words. -/
def add (overflow : Overflow) (a b : UInt64) : Except Error UInt64 :=
  if overflow = stops ∧ 2 ^ 64 ≤ a.toNat + b.toNat then .error .overflow else .ok (a + b)

variable {overflow : Overflow} {a b : UInt64}

/-- A value that is given unless sums stop and one of them is too large. -/
theorem guarded_eq_ok_iff {α : Type} {tooLarge : Prop} [Decidable tooLarge] {value result : α} :
    (if overflow = stops ∧ tooLarge then .error .overflow else .ok value : Except Error α) =
        .ok result ↔
      result = value ∧ (overflow = stops → ¬tooLarge) := by
  split
  case isTrue wrapped =>
    simp only [reduceCtorEq, false_iff, not_and]
    intro _ fits
    exact fits wrapped.1 wrapped.2
  case isFalse exact =>
    rw [Except.ok.injEq, eq_comm, iff_self_and]
    intro _ checked large
    exact exact ⟨checked, large⟩

theorem add_eq_ok_iff {sum : UInt64} :
    overflow.add a b = .ok sum ↔ sum = a + b ∧ (overflow = stops → a.toNat + b.toNat < 2 ^ 64) := by
  rw [add, guarded_eq_ok_iff, Nat.not_le]

theorem add_of_lt (fits : a.toNat + b.toNat < 2 ^ 64) : overflow.add a b = .ok (a + b) :=
  add_eq_ok_iff.mpr ⟨rfl, fun _ => fits⟩

theorem stops_add_of_le (large : 2 ^ 64 ≤ a.toNat + b.toNat) : stops.add a b = .error .overflow :=
  if_pos ⟨rfl, large⟩

end Overflow

end RaggedTrajectory
