import RaggedTrajectory.Number.Natural

/-!
# Binary interchange formats

A binary floating-point format is fixed by the number of its fraction bits and exponent bits. This
module reads a bit pattern as an exact number and rounds an exact quotient to the nearest pattern,
ties to even. Conversions and arithmetic are these two functions around exact natural arithmetic.
-/

namespace RaggedTrajectory

/-- The sizes of the two fields below the sign of a binary floating-point format. -/
structure Interchange where
  /-- Stored bits of the significand. -/
  fractionBits : Nat
  /-- Bits of the biased exponent. -/
  exponentBits : Nat

/-- What a bit pattern stands for. -/
inductive Datum where
  /-- Not a number. -/
  | nan
  /-- An infinity. -/
  | infinite (negative : Bool)
  /-- The number `significand * 2 ^ exponent`, negated if `negative`. -/
  | finite (negative : Bool) (significand : Nat) (exponent : Int)
  deriving DecidableEq, Repr

namespace Interchange

/-- Single precision. -/
def binary32 : Interchange := ⟨23, 8⟩

/-- Double precision. -/
def binary64 : Interchange := ⟨52, 11⟩

variable (format : Interchange)

/-- The weight of the sign bit. -/
def signWeight : Nat := 2 ^ (format.fractionBits + format.exponentBits)

/-- The weight of the lowest exponent bit, which is also the implicit leading significand bit. -/
def leadWeight : Nat := 2 ^ format.fractionBits

/-- The exponent field of infinities and of patterns that are no numbers. -/
def topExponent : Nat := 2 ^ format.exponentBits - 1

/-- The pattern of positive infinity. -/
def infinity : Nat := format.topExponent * format.leadWeight

/-- The exponent of the smallest positive number, a power of two. -/
def minExponent : Int :=
  2 - (2 ^ (format.exponentBits - 1) : Nat) - format.fractionBits

/-- The number a bit pattern stands for. -/
def datum (bits : Nat) : Datum :=
  let fraction := bits % format.leadWeight
  let exponent := bits / format.leadWeight % 2 ^ format.exponentBits
  let negative := bits / format.signWeight % 2 = 1
  if exponent = format.topExponent then
    if fraction = 0 then .infinite negative else .nan
  else if exponent = 0 then .finite negative fraction format.minExponent
  else .finite negative (format.leadWeight + fraction) (format.minExponent + (exponent - 1 : Nat))

/-- The natural number nearest to a quotient, the even one of two that are equally near. -/
def nearest (numerator denominator : Nat) : Nat :=
  let quotient := numerator / denominator
  let twice := 2 * (numerator % denominator)
  if twice < denominator ∨ (twice = denominator ∧ quotient % 2 = 0) then quotient
  else quotient + 1

/-- The quotient `numerator / denominator / 2 ^ exponent`, as a numerator and a denominator. -/
def scale (numerator denominator : Nat) (exponent : Int) : Nat × Nat :=
  if 0 ≤ exponent then (numerator, denominator * 2 ^ exponent.toNat)
  else (numerator * 2 ^ (-exponent).toNat, denominator)

/-- The exponent at which a quotient is rounded: the one that leaves a significand of full length,
but no less than the least exponent of the format. -/
def roundingExponent (numerator denominator : Nat) : Int :=
  let guess : Int := (numerator.log2 : Int) - denominator.log2 - format.fractionBits
  let exponent := max format.minExponent guess
  let (n, d) := scale numerator denominator exponent
  if n / d < format.leadWeight ∧ format.minExponent < exponent then exponent - 1 else exponent

/-- The pattern of the non-negative number nearest to a quotient, infinity if the quotient rounds
to more than the format holds. A significand that rounds up to the next power of two carries into
the exponent field by itself. -/
def roundMagnitude (numerator denominator : Nat) : Nat :=
  if numerator = 0 then 0
  else
    let exponent := format.roundingExponent numerator denominator
    let (n, d) := scale numerator denominator exponent
    min format.infinity
      ((exponent - format.minExponent).toNat * format.leadWeight + nearest n d)

/-- The pattern of the number nearest to a signed quotient. -/
def round (negative : Bool) (numerator denominator : Nat) : Nat :=
  format.roundMagnitude numerator denominator + if negative then format.signWeight else 0

/-- The pattern of a signed infinity. -/
def signedInfinity (negative : Bool) : Nat :=
  format.infinity + if negative then format.signWeight else 0

/-- The quiet pattern that arithmetic gives where there is no number. -/
def quietNaN : Nat := format.infinity + format.leadWeight / 2

/-- Rounds `significand * 2 ^ exponent`. -/
def roundScaled (negative : Bool) (significand : Nat) (exponent : Int) : Nat :=
  if 0 ≤ exponent then format.round negative (significand * 2 ^ exponent.toNat) 1
  else format.round negative significand (2 ^ (-exponent).toNat)

end Interchange

end RaggedTrajectory
