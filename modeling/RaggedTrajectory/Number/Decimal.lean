import RaggedTrajectory.Number.Binary

/-!
# Decimal text of double precision values

`Decimal.shortest` finds the decimal number with the fewest digits that reads back as a given
value, the nearest of those. `DecimalStyle` says how the digits of such a number are laid out; the
programs that write numbers choose one of its values.
-/

namespace RaggedTrajectory

/-- The number `digits * 10 ^ exponent`. -/
structure Decimal where
  digits : Nat
  exponent : Int
  deriving DecidableEq, Repr

namespace Decimal

/-- A quotient of natural numbers. -/
structure Ratio where
  numerator : Nat
  denominator : Nat

namespace Ratio

/-- The order of quotients with positive denominators. -/
def le (a b : Ratio) : Bool := a.numerator * b.denominator ≤ b.numerator * a.denominator

/-- The strict order of quotients with positive denominators. -/
def lt (a b : Ratio) : Bool := a.numerator * b.denominator < b.numerator * a.denominator

/-- `significand * 2 ^ exponent`. -/
def ofScaled (significand : Nat) (exponent : Int) : Ratio :=
  if 0 ≤ exponent then ⟨significand * 2 ^ exponent.toNat, 1⟩
  else ⟨significand, 2 ^ (-exponent).toNat⟩

/-- The quotient divided by `10 ^ exponent`. -/
def unscaleTen (a : Ratio) (exponent : Int) : Ratio :=
  if 0 ≤ exponent then ⟨a.numerator, a.denominator * 10 ^ exponent.toNat⟩
  else ⟨a.numerator * 10 ^ (-exponent).toNat, a.denominator⟩

end Ratio

/-- The quotient a decimal number stands for. -/
def toRatio (d : Decimal) : Ratio :=
  if 0 ≤ d.exponent then ⟨d.digits * 10 ^ d.exponent.toNat, 1⟩
  else ⟨d.digits, 10 ^ (-d.exponent).toNat⟩

/-- An interval of numbers that round to one value. -/
structure Interval where
  low : Ratio
  high : Ratio
  /-- Whether the ends belong to it. -/
  closed : Bool

/-- Whether a decimal number lies in the interval. -/
def Interval.holds (i : Interval) (d : Decimal) : Bool :=
  let x := d.toRatio
  if i.closed then i.low.le x && x.le i.high else i.low.lt x && x.lt i.high

/-- The numbers that round to `significand * 2 ^ exponent`: half way to either neighbour. The
neighbour below a power of two is only half as far away, unless the exponent is the least one. -/
def roundingInterval (significand : Nat) (exponent : Int) : Interval where
  low :=
    if significand = Interchange.binary64.leadWeight ∧
        Interchange.binary64.minExponent < exponent then
      Ratio.ofScaled (4 * significand - 1) (exponent - 2)
    else Ratio.ofScaled (4 * significand - 2) (exponent - 2)
  high := Ratio.ofScaled (4 * significand + 2) (exponent - 2)
  closed := significand % 2 = 0

/-- The decimal exponent of the leading digit of a positive quotient: an estimate from the binary
logarithms, then corrected by at most two in either direction. -/
def leadingExponent (x : Ratio) : Int :=
  let guess : Int := ((x.numerator.log2 : Int) - x.denominator.log2) * 30103 / 100000
  let atLeast (e : Int) : Bool := (toRatio ⟨1, e⟩).le x
  if atLeast (guess + 2) then guess + 2
  else if atLeast (guess + 1) then guess + 1
  else if atLeast guess then guess
  else if atLeast (guess - 1) then guess - 1
  else guess - 2

/-- The better of the two neighbours of `x` on the grid of multiples of `10 ^ exponent`, if one of
them lies in the interval. -/
def onGrid (x : Ratio) (interval : Interval) (exponent : Int) : Option Decimal :=
  let scaled := x.unscaleTen exponent
  let below : Decimal := ⟨scaled.numerator / scaled.denominator, exponent⟩
  let above : Decimal := ⟨below.digits + 1, exponent⟩
  match interval.holds below, interval.holds above with
  | true, true =>
    let twice := 2 * (scaled.numerator % scaled.denominator)
    if twice < scaled.denominator ∨ (twice = scaled.denominator ∧ below.digits % 2 = 0) then
      some below
    else some above
  | true, false => some below
  | false, true => some above
  | false, false => none

/-- The first grid, from coarse to fine, that has a point in the interval. -/
def firstGrid (x : Ratio) (interval : Interval) (exponent : Int) : (grids : Nat) → Decimal
  | 0 => ⟨x.numerator / x.denominator, 0⟩
  | grids + 1 =>
    match onGrid x interval exponent with
    | some d => d
    | none => firstGrid x interval (exponent - 1) grids

/-- The decimal number of fewest digits among those that round to `significand * 2 ^ exponent`,
the nearest of them; `significand` is positive. Seventeen digits always suffice. -/
def shortest (significand : Nat) (exponent : Int) : Decimal :=
  let x := Ratio.ofScaled significand exponent
  firstGrid x (roundingInterval significand exponent) (leadingExponent x + 1) 19

/-- The decimal digits of a natural number. -/
def digitText (n : Nat) : List Char := Nat.toDigits 10 n

end Decimal

/-- How the digits of a decimal number are laid out. -/
structure DecimalStyle where
  /-- Whether a whole number keeps a point and a zero. -/
  keepsPoint : Bool
  /-- Whether numbers of magnitude below `10 ^ (-5)` or at least `10 ^ 16` get an exponent. -/
  usesExponent : Bool
  /-- Whether a positive exponent shows its sign. -/
  signsExponent : Bool
  /-- The text of what is no number. -/
  nanText : String
  /-- The text of positive infinity. -/
  infinityText : String

namespace DecimalStyle

/-- Digits with the point at its place. -/
def positional (style : DecimalStyle) (d : Decimal) : List Char :=
  let digits := Decimal.digitText d.digits
  if 0 ≤ d.exponent then
    digits ++ List.replicate d.exponent.toNat '0' ++ if style.keepsPoint then ['.', '0'] else []
  else
    let places := (-d.exponent).toNat
    if places < digits.length then
      digits.take (digits.length - places) ++ '.' :: digits.drop (digits.length - places)
    else '0' :: '.' :: (List.replicate (places - digits.length) '0' ++ digits)

/-- One digit before the point, and an exponent. -/
def scientific (style : DecimalStyle) (d : Decimal) : List Char :=
  let digits := Decimal.digitText d.digits
  let exponent : Int := d.exponent + (digits.length - 1 : Nat)
  let mantissa := match digits with
    | [] => []
    | [lead] => [lead]
    | lead :: rest => lead :: '.' :: rest
  let sign := if exponent < 0 then ['-'] else if style.signsExponent then ['+'] else []
  mantissa ++ 'e' :: sign ++ Decimal.digitText exponent.natAbs

/-- A number without trailing zeros in its digits. -/
def stripZeros (d : Decimal) : (fuel : Nat) → Decimal
  | 0 => d
  | fuel + 1 =>
    if d.digits ≠ 0 ∧ d.digits % 10 = 0 then stripZeros ⟨d.digits / 10, d.exponent + 1⟩ fuel else d

/-- The text of a value, with the fewest digits that read back. -/
def render (style : DecimalStyle) (x : Binary64) : String :=
  match x.datum with
  | .nan => style.nanText
  | .infinite negative => if negative then "-" ++ style.infinityText else style.infinityText
  | .finite negative significand exponent =>
    let sign := if negative then ['-'] else []
    if significand = 0 then
      String.ofList (sign ++ style.positional ⟨0, 0⟩)
    else
      let d := stripZeros (Decimal.shortest significand exponent) 20
      let lead : Int := d.exponent + ((Decimal.digitText d.digits).length - 1 : Nat)
      if style.usesExponent ∧ (lead < -5 ∨ 16 ≤ lead) then
        String.ofList (sign ++ style.scientific d)
      else String.ofList (sign ++ style.positional d)

end DecimalStyle

end RaggedTrajectory
