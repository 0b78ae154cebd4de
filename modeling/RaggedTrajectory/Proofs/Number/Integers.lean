import RaggedTrajectory.Number.Binary

/-!
# Integers in double precision

A positive integer below `2 ^ 53` has at most 53 binary digits. Moved to the left until there are 53
it is a significand of full length, so rounding has nothing to round: the pattern of the nearest
number stands for the integer itself. The integer part of a number that stands for an integer is
this integer, cut off at the bounds.

* `Datum.IsInteger.unique`: a pattern stands for one integer at most.
* `Interchange.roundMagnitude_of_lt`: the pattern of a positive integer.
* `Binary64.isInteger_ofInt`: the conversion of an integer is exact.
* `Binary64.truncateWithin_of_isInteger`: the conversion back cuts off at the bounds.
-/

namespace RaggedTrajectory

/-- What a bit pattern stands for is the integer `n`. A zero may have either sign. -/
def Datum.IsInteger : Datum → Int → Prop
  | .finite negative significand exponent, n =>
    significand * 2 ^ exponent.toNat = n.natAbs * 2 ^ (-exponent).toNat ∧
      (n ≠ 0 → negative = decide (n < 0))
  | _, _ => False

/-- A bit pattern stands for one integer at most. -/
theorem Datum.IsInteger.unique {datum : Datum} {n m : Int} (first : datum.IsInteger n)
    (second : datum.IsInteger m) : n = m := by
  cases datum with
  | nan => exact first.elim
  | infinite negative => exact first.elim
  | finite negative significand exponent =>
    obtain ⟨digits, sign⟩ := first
    obtain ⟨others, other⟩ := second
    have same : n.natAbs = m.natAbs :=
      Nat.eq_of_mul_eq_mul_right (Nat.two_pow_pos _) (digits.symm.trans others)
    -- Only zero has no sign, and then both are zero.
    by_cases zero : n = 0
    · omega
    · have signs : decide (n < 0) = decide (m < 0) :=
        (sign zero).symm.trans (other (by omega))
      rw [decide_eq_decide] at signs
      omega

/-! ## Significands of full length -/

section Significand

variable {n : Nat}

/-- The digits of an integer below `2 ^ 53`, moved to the left until there are 53. -/
def fullSignificand (n : Nat) : Nat := n * 2 ^ (52 - n.log2)

theorem log2_le_of_lt (positive : n ≠ 0) (small : n < 2 ^ 53) : n.log2 ≤ 52 :=
  Nat.le_of_lt_succ ((Nat.log2_lt positive).2 small)

/-- The leading digit is the one of weight `2 ^ 52`. -/
theorem fullSignificand_bounds (positive : n ≠ 0) (small : n < 2 ^ 53) :
    2 ^ 52 ≤ fullSignificand n ∧ fullSignificand n < 2 ^ 53 := by
  have digits := log2_le_of_lt positive small
  have low : 2 ^ n.log2 ≤ n := Nat.log2_self_le positive
  have high : n < 2 ^ (n.log2 + 1) := Nat.lt_log2_self
  have room : 0 < 2 ^ (52 - n.log2) := Nat.two_pow_pos _
  constructor
  · calc 2 ^ 52
      _ = 2 ^ n.log2 * 2 ^ (52 - n.log2) := by rw [← Nat.pow_add, Nat.add_sub_cancel' digits]
      _ ≤ n * 2 ^ (52 - n.log2) := Nat.mul_le_mul_right _ low
  · calc n * 2 ^ (52 - n.log2)
      _ < 2 ^ (n.log2 + 1) * 2 ^ (52 - n.log2) := Nat.mul_lt_mul_of_pos_right high room
      _ = 2 ^ 53 := by rw [← Nat.pow_add]; congr 1; omega

end Significand

namespace Interchange

/-! ## The sizes of double precision -/

theorem fractionBits_binary64 : binary64.fractionBits = 52 := rfl

theorem exponentBits_binary64 : binary64.exponentBits = 11 := rfl

theorem leadWeight_binary64 : binary64.leadWeight = 2 ^ 52 := rfl

theorem signWeight_binary64 : binary64.signWeight = 2 ^ 63 := rfl

theorem topExponent_binary64 : binary64.topExponent = 2047 := rfl

theorem minExponent_binary64 : binary64.minExponent = -1074 := rfl

/-! ## Rounding and reading -/

section Exact

variable {n : Nat}

/-- An integer is scaled to its significand of full length. -/
theorem scale_of_lt (positive : n ≠ 0) (small : n < 2 ^ 53) :
    scale n 1 ((n.log2 : Int) - 52) = (fullSignificand n, 1) := by
  have digits := log2_le_of_lt positive small
  rw [scale, fullSignificand]
  split
  · -- Only an integer of 53 digits is not moved at all.
    have full : n.log2 = 52 := by omega
    simp [full]
  · have distance : (-((n.log2 : Int) - 52)).toNat = 52 - n.log2 := by omega
    rw [distance]

/-- The exponent is the one that leaves a significand of full length. -/
theorem roundingExponent_of_lt (positive : n ≠ 0) (small : n < 2 ^ 53) :
    binary64.roundingExponent n 1 = (n.log2 : Int) - 52 := by
  have one : Nat.log2 1 = 0 := rfl
  -- An integer is far above the least exponent, so the guess is taken.
  have guess : max (-1074) ((n.log2 : Int) - (0 : Nat) - (52 : Nat)) = (n.log2 : Int) - 52 := by
    omega
  simp only [roundingExponent, minExponent_binary64, one, fractionBits_binary64, guess,
    scale_of_lt positive small, Nat.div_one, leadWeight_binary64]
  -- The guess is not one too large, because no digit is missing.
  have full := (fullSignificand_bounds positive small).1
  rw [if_neg fun ⟨short, _⟩ => absurd short (Nat.not_lt.2 full)]

/-- The pattern of a positive integer below `2 ^ 53`: the exponent field is one less than the biased
number of its digits, because the leading digit of the significand is added to it. -/
theorem roundMagnitude_of_lt (positive : n ≠ 0) (small : n < 2 ^ 53) :
    binary64.roundMagnitude n 1 = (n.log2 + 1022) * 2 ^ 52 + fullSignificand n := by
  have digits := log2_le_of_lt positive small
  have bounds := fullSignificand_bounds positive small
  have biased : ((n.log2 : Int) - 52 - -1074).toNat = n.log2 + 1022 := by omega
  have top : binary64.infinity = 2047 * 2 ^ 52 := rfl
  -- A quotient by one has no remainder, so nothing is rounded.
  have whole : nearest (fullSignificand n) 1 = fullSignificand n := by
    simp [nearest, Nat.mod_one]
  rw [roundMagnitude, if_neg positive]
  simp only [roundingExponent_of_lt positive small, scale_of_lt positive small, whole,
    minExponent_binary64, biased, leadWeight_binary64, top]
  omega

end Exact

/-- A sign, an exponent field and a fraction in a row stand for a normal number. -/
theorem datum_normal {exponent fraction : Nat} (negative : Bool) (positive : 0 < exponent)
    (finite : exponent < 2047) (short : fraction < 2 ^ 52) :
    binary64.datum (exponent * 2 ^ 52 + fraction + if negative then 2 ^ 63 else 0) =
      .finite negative (2 ^ 52 + fraction) ((exponent : Int) - 1075) := by
  obtain ⟨sign, weight, bit⟩ : ∃ sign : Nat, (if negative then 2 ^ 63 else 0) = sign * 2 ^ 63 ∧
      ((sign = 0 ∧ negative = false) ∨ (sign = 1 ∧ negative = true)) := by
    cases negative
    · exact ⟨0, rfl, .inl ⟨rfl, rfl⟩⟩
    · exact ⟨1, rfl, .inr ⟨rfl, rfl⟩⟩
  rw [weight]
  -- Each field is what is left between the weight of its lowest bit and that of the next field.
  have first : (exponent * 2 ^ 52 + fraction + sign * 2 ^ 63) % 2 ^ 52 = fraction := by omega
  have second : (exponent * 2 ^ 52 + fraction + sign * 2 ^ 63) / 2 ^ 52 % 2 ^ 11 = exponent := by
    omega
  have third : (exponent * 2 ^ 52 + fraction + sign * 2 ^ 63) / 2 ^ 63 % 2 = sign := by omega
  have set : decide (sign = 1) = negative := by
    rcases bit with ⟨rfl, rfl⟩ | ⟨rfl, rfl⟩ <;> rfl
  have place : (-1074 : Int) + (exponent - 1 : Nat) = (exponent : Int) - 1075 := by omega
  simp only [datum, leadWeight_binary64, signWeight_binary64, exponentBits_binary64,
    topExponent_binary64, minExponent_binary64, first, second, third, set, place]
  rw [if_neg (Nat.ne_of_lt finite), if_neg (Nat.ne_of_gt positive)]

end Interchange

namespace Binary64

open Interchange

/-- The pattern of an integer whose absolute value is below `2 ^ 53`, if it is not zero. -/
theorem datum_ofInt {n : Int} (nonzero : n ≠ 0) (small : n.natAbs < 2 ^ 53) :
    (ofInt n).datum =
      .finite (n < 0) (fullSignificand n.natAbs) ((n.natAbs.log2 : Int) - 52) := by
  have positive : n.natAbs ≠ 0 := Int.natAbs_ne_zero.2 nonzero
  have digits := log2_le_of_lt positive small
  obtain ⟨low, high⟩ := fullSignificand_bounds positive small
  -- The leading digit of the significand carries into the exponent field.
  have pattern : binary64.round (n < 0) n.natAbs 1 =
      (n.natAbs.log2 + 1023) * 2 ^ 52 + (fullSignificand n.natAbs - 2 ^ 52) +
        if decide (n < 0) then 2 ^ 63 else 0 := by
    rw [Interchange.round, roundMagnitude_of_lt positive small, signWeight_binary64]
    omega
  have word : binary64.round (n < 0) n.natAbs 1 < 2 ^ 64 := by
    rw [pattern]
    split <;> omega
  have bits : (ofInt n).bits.toNat = binary64.round (n < 0) n.natAbs 1 :=
    UInt64.toNat_ofNat_of_lt' word
  have lead : 2 ^ 52 + (fullSignificand n.natAbs - 2 ^ 52) = fullSignificand n.natAbs := by omega
  have place : ((n.natAbs.log2 + 1023 : Nat) : Int) - 1075 = (n.natAbs.log2 : Int) - 52 := by omega
  rw [datum, bits, pattern, datum_normal _ (by omega) (by omega) (by omega), lead, place]

/-- The conversion of an integer whose absolute value is below `2 ^ 53` is exact. -/
theorem isInteger_ofInt {n : Int} (small : n.natAbs < 2 ^ 53) : (ofInt n).datum.IsInteger n := by
  by_cases zero : n = 0
  · subst zero
    have pattern : (ofInt 0).datum = .finite false 0 (-1074) := by decide
    rw [pattern]
    exact ⟨by rw [Nat.zero_mul, Int.natAbs_zero, Nat.zero_mul], fun other => absurd rfl other⟩
  · have digits := log2_le_of_lt (Int.natAbs_ne_zero.2 zero) small
    have left : ((n.natAbs.log2 : Int) - 52).toNat = 0 := by omega
    have right : (-((n.natAbs.log2 : Int) - 52)).toNat = 52 - n.natAbs.log2 := by omega
    rw [datum_ofInt zero small, Datum.IsInteger, left, right, fullSignificand]
    exact ⟨by rw [Nat.pow_zero, Nat.mul_one], fun _ => rfl⟩

/-- The integer part of what stands for an integer is this integer, cut off at the bounds. -/
theorem truncateWithin_of_isInteger {x : Binary64} {n : Int} (low high : Int)
    (same : x.datum.IsInteger n) : x.truncateWithin low high = clamp low high n := by
  rw [truncateWithin]
  cases pattern : x.datum with
  | nan => rw [pattern] at same; exact same.elim
  | infinite negative => rw [pattern] at same; exact same.elim
  | finite negative significand exponent =>
    rw [pattern] at same
    obtain ⟨digits, sign⟩ := same
    -- Behind the point there are only zeros.
    have whole : (if 0 ≤ exponent then significand * 2 ^ exponent.toNat
        else significand / 2 ^ (-exponent).toNat) = n.natAbs := by
      split
      · next up =>
        have none : (-exponent).toNat = 0 := by omega
        rw [digits, none, Nat.pow_zero, Nat.mul_one]
      · next down =>
        have none : exponent.toNat = 0 := by omega
        rw [none, Nat.pow_zero, Nat.mul_one] at digits
        rw [digits, Nat.mul_div_cancel _ (Nat.two_pow_pos _)]
    have value : (if negative then -(n.natAbs : Int) else n.natAbs) = n := by
      by_cases zero : n = 0
      · simp [zero]
      · rw [sign zero]
        split
        · next below => have := of_decide_eq_true below; omega
        · next above => have := of_decide_eq_false (Bool.eq_false_iff.2 above); omega
    simp only [whole, value]

end Binary64

end RaggedTrajectory
