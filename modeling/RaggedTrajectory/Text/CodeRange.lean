/-!
# Sets of code points

A property of characters is a sorted list of ranges of code points, both ends included.
-/

namespace RaggedTrajectory

/-- A set of code points, as ranges with both ends included. -/
abbrev CodeRanges := List (Nat × Nat)

/-- Whether a character belongs to one of the ranges. -/
def CodeRanges.contains (ranges : CodeRanges) (c : Char) : Bool :=
  ranges.any fun (low, high) => low ≤ c.toNat && c.toNat ≤ high

end RaggedTrajectory
