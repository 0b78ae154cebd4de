import RaggedTrajectory.Json.Parser
import RaggedTrajectory.Number.Decimal

/-!
# The value of a number in JSON text

A number without fraction and exponent is an integer if 64 bits hold it. Any other number is taken
in double precision: as many digits as fit a 64-bit word are kept, and the word is scaled by a
power of ten, which rounds a second time. A number beyond the range has no value.
-/

namespace RaggedTrajectory.Json

/-- The value of a number. -/
inductive Numeral where
  | integer (value : Int)
  | float (value : Binary64)
  deriving DecidableEq, Repr

namespace Numeral

/-- The parts of a number as it is written. -/
structure Parts where
  negative : Bool
  whole : Bytes
  fraction : Option Bytes
  /-- Whether the exponent is negative, and its digits. -/
  exponent : Option (Bool × Bytes)

/-- Splits off the exponent. -/
def exponentPart : Bytes → Option (Bool × Bytes)
  | [] => none
  | _ :: rest =>
    match readSign rest with
    | (sign, digits) => some (sign = [Ascii.byte '-'], digits)

/-- Splits a number into its parts. -/
def split (lexeme : Bytes) : Parts :=
  let negative := lexeme.head? = some (Ascii.byte '-')
  let (whole, rest) := takeDigits (if negative then lexeme.drop 1 else lexeme)
  if rest.head? = some (Ascii.byte '.') then
    let (fraction, rest) := takeDigits (rest.drop 1)
    ⟨negative, whole, some fraction, exponentPart rest⟩
  else ⟨negative, whole, none, exponentPart rest⟩

/-- The largest word of 64 bits. -/
def maxWord : Nat := 2 ^ 64 - 1

/-- Takes digits into a word as long as it fits 64 bits: the word and the digits left out. -/
def accumulate (word : Nat) : Bytes → Nat × Bytes
  | [] => (word, [])
  | digit :: rest =>
    let longer := word * 10 + Ascii.digitValue digit
    if maxWord < longer then (word, digit :: rest) else accumulate longer rest

/-- The value of digits, or nothing if it passes the largest exponent. -/
def exponentValue? (digits : Bytes) : Option Nat :=
  let value := digits.foldl (fun n digit => min (n * 10 + Ascii.digitValue digit) (2 ^ 31)) 0
  if value < 2 ^ 31 then some value else none

/-- `10 ^ n` in double precision. -/
def powerOfTen (n : Nat) : Binary64 := Binary64.ofRatio false (10 ^ n) 1

/-- Scales a value by a power of ten, at most 308 places at a time. Beyond the range there is no
value. -/
def scale (x : Binary64) (exponent : Int) : (fuel : Nat) → Option Binary64
  | 0 => some x
  | fuel + 1 =>
    if exponent.natAbs ≤ 308 then
      if 0 ≤ exponent then
        let y := x.mul (powerOfTen exponent.natAbs)
        if y.isInfinite then none else some y
      else some (x.div (powerOfTen exponent.natAbs))
    else if x.isZero then some x
    else if 0 ≤ exponent then none
    else scale (x.div (powerOfTen 308)) (exponent + 308) fuel

/-- `word * 10 ^ exponent` with a sign. After three divisions by `10 ^ 308` every word is zero. -/
def scaled? (negative : Bool) (word : Nat) (exponent : Int) : Option Binary64 :=
  (scale (Binary64.ofInt word) exponent 5).map fun x => if negative then x.neg else x

/-- The bounds of an exponent. -/
def boundExponent (exponent : Int) : Int := max (-2147483648) (min exponent 2147483647)

/-- The value of a number in double precision. -/
def toFloat? (parts : Parts) : Option Binary64 :=
  let (word, dropped) := accumulate 0 parts.whole
  let fraction := parts.fraction.getD []
  let (word, unused) := accumulate word fraction
  let places : Int := dropped.length - (fraction.length - unused.length : Nat)
  match parts.exponent with
  | none => scaled? parts.negative word places
  | some (below, digits) =>
    match exponentValue? digits with
    | some e =>
      scaled? parts.negative word (boundExponent (if below then places - e else places + e))
    | none =>
      if word ≠ 0 ∧ ¬below then none
      else some (if parts.negative then (Binary64.ofInt 0).neg else Binary64.ofInt 0)

/-- The value of a number as it is written. Minus zero is no integer. -/
def ofLexeme? (lexeme : Bytes) : Option Numeral :=
  let parts := split lexeme
  match parts.fraction, parts.exponent, accumulate 0 parts.whole with
  | none, none, (word, []) =>
    if ¬parts.negative then some (.integer word)
    else if 0 < word ∧ word ≤ 2 ^ 63 then some (.integer (-word))
    else some (.float (Binary64.ofInt word).neg)
  | _, _, _ => (toFloat? parts).map .float

/-- An integer as it is written. -/
def renderInteger (n : Int) : Bytes :=
  if n < 0 then Ascii.byte '-' :: Ascii.decimal n.natAbs else Ascii.decimal n.natAbs

/-- A number always shows that it is no integer; very large or small ones get an exponent with its
sign. -/
def floatStyle : DecimalStyle := ⟨true, true, true, "null", "null"⟩

end Numeral

end RaggedTrajectory.Json
