import RaggedTrajectory.Number.Interchange

/-!
# Single and double precision values

`Binary32` and `Binary64` are bit patterns, so that a copy keeps every bit, payloads included.
Arithmetic and conversions are exact computations rounded once.
-/

namespace RaggedTrajectory

/-- A single precision bit pattern. -/
structure Binary32 where
  bits : UInt32
  deriving DecidableEq, Repr, Inhabited

/-- A double precision bit pattern. -/
structure Binary64 where
  bits : UInt64
  deriving DecidableEq, Repr, Inhabited

namespace Binary32

open Interchange

/-- The number the pattern stands for. -/
def datum (x : Binary32) : Datum := binary32.datum x.bits.toNat

/-- The value nearest to a natural number. -/
def ofNat (n : Nat) : Binary32 := ⟨UInt32.ofNat (binary32.round false n 1)⟩

/-- Compares two finite numbers exactly. -/
def finiteLt (negative₁ : Bool) (m₁ : Nat) (e₁ : Int) (negative₂ : Bool) (m₂ : Nat) (e₂ : Int) :
    Bool :=
  let shift := min e₁ e₂
  let a : Int := m₁ * 2 ^ (e₁ - shift).toNat
  let b : Int := m₂ * 2 ^ (e₂ - shift).toNat
  (if negative₁ then -a else a) < (if negative₂ then -b else b)

/-- The order of numbers: false where either side is no number. -/
def lt (x y : Binary32) : Bool :=
  match x.datum, y.datum with
  | .nan, _ => false
  | _, .nan => false
  | .infinite negative, .infinite negative' => negative && !negative'
  | .infinite negative, .finite .. => negative
  | .finite .., .infinite negative => !negative
  | .finite n₁ m₁ e₁, .finite n₂ m₂ e₂ => finiteLt n₁ m₁ e₁ n₂ m₂ e₂

/-- The quotient of two natural numbers that are first rounded to single precision each. -/
def ratio (n d : Nat) : Binary32 :=
  match (ofNat n).datum, (ofNat d).datum with
  | .finite _ m₁ e₁, .finite _ m₂ e₂ =>
    if m₂ = 0 then
      if m₁ = 0 then ⟨UInt32.ofNat binary32.quietNaN⟩ else ⟨UInt32.ofNat binary32.infinity⟩
    else
      let shift := min e₁ e₂
      ⟨UInt32.ofNat
        (binary32.round false (m₁ * 2 ^ (e₁ - shift).toNat) (m₂ * 2 ^ (e₂ - shift).toNat))⟩
  | _, _ => ⟨UInt32.ofNat binary32.quietNaN⟩

/-- The same number in double precision. A pattern that is no number keeps its sign and payload
and becomes quiet. -/
def widen (x : Binary32) : Binary64 :=
  let bits := x.bits.toNat
  let negative := bits / binary32.signWeight % 2 = 1
  match x.datum with
  | .nan =>
    let payload := bits % binary32.leadWeight % (binary32.leadWeight / 2)
    ⟨UInt64.ofNat (binary64.quietNaN + payload * 2 ^ 29 +
      if negative then binary64.signWeight else 0)⟩
  | .infinite negative => ⟨UInt64.ofNat (binary64.signedInfinity negative)⟩
  | .finite negative m e => ⟨UInt64.ofNat (binary64.roundScaled negative m e)⟩

end Binary32

namespace Binary64

open Interchange

/-- The number the pattern stands for. -/
def datum (x : Binary64) : Datum := binary64.datum x.bits.toNat

/-- Whether the sign bit is set. -/
def isNegative (x : Binary64) : Bool := x.bits.toNat / binary64.signWeight % 2 = 1

/-- Whether the pattern is an infinity. -/
def isInfinite (x : Binary64) : Bool := x.datum = .infinite true ∨ x.datum = .infinite false

/-- Whether the pattern is a zero of either sign. -/
def isZero (x : Binary64) : Bool := x.bits.toNat % binary64.signWeight = 0

/-- The value nearest to an integer. -/
def ofInt (n : Int) : Binary64 := ⟨UInt64.ofNat (binary64.round (n < 0) n.natAbs 1)⟩

/-- The value nearest to a quotient. -/
def ofRatio (negative : Bool) (numerator denominator : Nat) : Binary64 :=
  ⟨UInt64.ofNat (binary64.round negative numerator denominator)⟩

/-- The value with the opposite sign bit. -/
def neg (x : Binary64) : Binary64 := ⟨x.bits ^^^ 0x8000000000000000⟩

/-- The product of two finite values; no number if either is not finite. -/
def mul (x y : Binary64) : Binary64 :=
  match x.datum, y.datum with
  | .finite n₁ m₁ e₁, .finite n₂ m₂ e₂ =>
    ⟨UInt64.ofNat (binary64.roundScaled (n₁ != n₂) (m₁ * m₂) (e₁ + e₂))⟩
  | .infinite n₁, .finite n₂ m _ =>
    if m = 0 then ⟨UInt64.ofNat binary64.quietNaN⟩
    else ⟨UInt64.ofNat (binary64.signedInfinity (n₁ != n₂))⟩
  | .finite n₁ m _, .infinite n₂ =>
    if m = 0 then ⟨UInt64.ofNat binary64.quietNaN⟩
    else ⟨UInt64.ofNat (binary64.signedInfinity (n₁ != n₂))⟩
  | .infinite n₁, .infinite n₂ => ⟨UInt64.ofNat (binary64.signedInfinity (n₁ != n₂))⟩
  | _, _ => ⟨UInt64.ofNat binary64.quietNaN⟩

/-- The quotient of two finite values, the second of them not zero; otherwise no number. -/
def div (x y : Binary64) : Binary64 :=
  match x.datum, y.datum with
  | .finite n₁ m₁ e₁, .finite n₂ m₂ e₂ =>
    if m₂ = 0 then ⟨UInt64.ofNat binary64.quietNaN⟩
    else
      let shift := min e₁ e₂
      ⟨UInt64.ofNat (binary64.round (n₁ != n₂) (m₁ * 2 ^ (e₁ - shift).toNat)
        (m₂ * 2 ^ (e₂ - shift).toNat))⟩
  | _, _ => ⟨UInt64.ofNat binary64.quietNaN⟩

/-- The same number in single precision, rounded. A pattern that is no number keeps its sign and
the high part of its payload and becomes quiet. -/
def narrow (x : Binary64) : Binary32 :=
  match x.datum with
  | .nan =>
    let payload := x.bits.toNat % (binary64.leadWeight / 2) / 2 ^ 29
    ⟨UInt32.ofNat (binary32.quietNaN + payload +
      if x.isNegative then binary32.signWeight else 0)⟩
  | .infinite negative => ⟨UInt32.ofNat (binary32.signedInfinity negative)⟩
  | .finite negative m e => ⟨UInt32.ofNat (binary32.roundScaled negative m e)⟩

/-- The least of the bounds and the greatest of them that hold `n`. -/
def clamp (low high n : Int) : Int := max low (min high n)

/-- The integer part within bounds: what is no number gives zero, and what is beyond a bound gives
the bound. -/
def truncateWithin (low high : Int) (x : Binary64) : Int :=
  match x.datum with
  | .nan => 0
  | .infinite negative => if negative then low else high
  | .finite negative m e =>
    let magnitude : Nat := if 0 ≤ e then m * 2 ^ e.toNat else m / 2 ^ (-e).toNat
    clamp low high (if negative then -magnitude else magnitude)

/-- The nearest integer within bounds, a half going away from zero. -/
def roundWithin (low high : Int) (x : Binary64) : Int :=
  match x.datum with
  | .nan => 0
  | .infinite negative => if negative then low else high
  | .finite negative m e =>
    let magnitude : Nat :=
      if 0 ≤ e then m * 2 ^ e.toNat
      else (2 * m + 2 ^ (-e).toNat) / (2 * 2 ^ (-e).toNat)
    clamp low high (if negative then -magnitude else magnitude)

end Binary64

end RaggedTrajectory
