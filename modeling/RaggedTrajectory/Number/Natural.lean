/-!
# Powers and sums

Powers of natural numbers and integers are those of the core library, also where another library
has powers of its own. The same holds for sums of natural numbers.

* `sumOf_append`: the sum of a row is the sum of the sums of its parts.
-/

namespace RaggedTrajectory

attribute [instance (10000)] instPowNat
attribute [default_instance 10000] instPowNat

/-- The sum of numbers. -/
def sumOf (numbers : List Nat) : Nat := numbers.foldr (· + ·) 0

@[simp]
theorem sumOf_nil : sumOf [] = 0 := rfl

@[simp]
theorem sumOf_cons (number : Nat) (numbers : List Nat) :
    sumOf (number :: numbers) = number + sumOf numbers := rfl

@[simp]
theorem sumOf_append (first second : List Nat) :
    sumOf (first ++ second) = sumOf first + sumOf second := by
  induction first with
  | nil => simp
  | cons number first ih => rw [List.cons_append, sumOf_cons, sumOf_cons, ih, Nat.add_assoc]

end RaggedTrajectory
