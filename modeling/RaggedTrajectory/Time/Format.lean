import RaggedTrajectory.Text.Blank
import RaggedTrajectory.Time.Timestamp

/-!
# The text of a moment

A moment is written as a date and a time of day with a blank between them. The year has four
digits, and a sign where four are not enough; the fraction of a second has as many groups of three
digits as it needs. A leap second is the second 60.

A reader skips white space before every number and between date and time.
-/

namespace RaggedTrajectory

namespace Timestamp

/-- A number with at least `width` digits. -/
def padded (width n : Nat) : List Char :=
  let digits := Nat.toDigits 10 n
  List.replicate (width - digits.length) '0' ++ digits

/-- A year with at least four digits. -/
def yearText (year : Int) : List Char :=
  if 0 ≤ year ∧ year ≤ 9999 then padded 4 year.toNat
  else (if year < 0 then '-' else '+') :: padded 4 year.natAbs

/-- The fraction of a second with its point, empty for a whole one. -/
def fractionText (nanosecond : Nat) : List Char :=
  if nanosecond = 0 then []
  else if nanosecond % 1000000 = 0 then '.' :: padded 3 (nanosecond / 1000000)
  else if nanosecond % 1000 = 0 then '.' :: padded 6 (nanosecond / 1000)
  else '.' :: padded 9 nanosecond

/-- The text of a moment, to the whole second. -/
def wholeText (t : Timestamp) : List Char :=
  yearText t.year ++ '-' :: padded 2 t.month ++ '-' :: padded 2 t.day ++ ' ' :: padded 2 t.hour ++
    ':' :: padded 2 t.minute ++ ':' :: padded 2 (t.second + t.nanosecond / perSecond)

/-- The text of a moment to the whole second. -/
def formatWhole (t : Timestamp) : String := String.ofList t.wholeText

/-- The text of a moment. -/
def format (t : Timestamp) : String :=
  String.ofList (t.wholeText ++ fractionText (t.nanosecond % perSecond))

/-- The value of decimal digits. -/
def digitsValue (digits : List Char) : Nat :=
  digits.foldl (fun n c => n * 10 + (c.toNat - '0'.toNat)) 0

/-- Reads digits, at most `width` of them and at least one. -/
def readDigits (width : Nat) (text : List Char) : Option (List Char × List Char) :=
  let digits := (text.take width).takeWhile Char.isDigit
  if digits = [] then none else some (digits, text.drop digits.length)

/-- Reads a number of at most two digits. -/
def readPair (text : List Char) : Option (Nat × List Char) :=
  (readDigits 2 (Text.dropBlanks text)).map fun (digits, rest) => (digitsValue digits, rest)

/-- Reads a year: at most four digits, or a sign and any number of digits. -/
def readYear (text : List Char) : Option (Int × List Char) :=
  match Text.dropBlanks text with
  | '-' :: rest =>
    (readDigits rest.length rest).map fun (digits, rest) => (-(digitsValue digits : Int), rest)
  | '+' :: rest =>
    (readDigits rest.length rest).map fun (digits, rest) => ((digitsValue digits : Int), rest)
  | text => (readDigits 4 text).map fun (digits, rest) => ((digitsValue digits : Int), rest)

/-- Reads a fraction of a second, if there is a point: up to nine digits count. -/
def readFraction (text : List Char) : Option (Nat × List Char) :=
  match text with
  | '.' :: rest =>
    (readDigits 9 rest).map fun (digits, rest) =>
      (digitsValue digits * 10 ^ (9 - digits.length), rest.dropWhile Char.isDigit)
  | rest => some (0, rest)

/-- The text after a given character. -/
def afterChar (c : Char) : List Char → Option (List Char)
  | [] => none
  | d :: rest => if d = c then some rest else none

/-- The moment that a text stands for. -/
def parse? (text : List Char) : Option Timestamp := do
  let (year, text) ← readYear text
  let text ← afterChar '-' text
  let (month, text) ← readPair text
  let text ← afterChar '-' text
  let (day, text) ← readPair text
  let (hour, text) ← readPair (Text.dropBlanks text)
  let text ← afterChar ':' text
  let (minute, text) ← readPair text
  let text ← afterChar ':' text
  let (second, text) ← readPair text
  let (fraction, text) ← readFraction text
  let t : Timestamp :=
    if second = 60 then ⟨year, month, day, hour, minute, 59, perSecond + fraction⟩
    else ⟨year, month, day, hour, minute, second, fraction⟩
  if text = [] ∧ t.isValid then some t else none

end Timestamp

end RaggedTrajectory
