import RaggedTrajectory.Time.Calendar

/-!
# Numbers and moments in TOML documents

Readers that check the form of a number or a moment and give the text after it. An integer must fit
64 bits with a sign, and a positive number with a fraction or an exponent must not pass the largest
value of double precision.
-/

namespace RaggedTrajectory.Toml

/-- Reads exactly `width` decimal digits. -/
def readFixed (width : Nat) (text : List Char) : Option (Nat × List Char) :=
  let digits := (text.take width).takeWhile Char.isDigit
  if digits.length = width then
    some (digits.foldl (fun n c => n * 10 + (c.toNat - '0'.toNat)) 0, text.drop width)
  else none

/-- The text after a given character. -/
def after? (c : Char) : List Char → Option (List Char)
  | [] => none
  | d :: rest => if d = c then some rest else none

/-- Reads a number of two digits between two bounds. -/
def readBetween (low high : Nat) (text : List Char) : Option (Nat × List Char) :=
  (readFixed 2 text).filter fun (n, _) => low ≤ n ∧ n ≤ high

/-- Whether a text starts like a date. -/
def startsDate (text : List Char) : Bool :=
  ((readFixed 4 text).bind fun (_, rest) => after? '-' rest).isSome

/-- Whether a text starts like a time of day. -/
def startsTime (text : List Char) : Bool :=
  ((readBetween 0 23 text).bind fun (_, rest) => after? ':' rest).isSome

/-- Reads a date. -/
def readDate (text : List Char) : Option (List Char) := do
  let (year, text) ← readFixed 4 text
  let text ← after? '-' text
  let (month, text) ← readBetween 1 12 text
  let text ← after? '-' text
  let (_, text) ← readBetween 1 (Calendar.daysInMonth year month) text
  return text

/-- Reads a fraction of a second, if there is one. -/
def skipFraction (text : List Char) : List Char :=
  match text with
  | '.' :: c :: rest => if c.isDigit then rest.dropWhile Char.isDigit else text
  | _ => text

/-- Reads a time of day. -/
def readTime (text : List Char) : Option (List Char) := do
  let (_, text) ← readBetween 0 23 text
  let text ← after? ':' text
  let (_, text) ← readBetween 0 59 text
  let text ← after? ':' text
  let (_, text) ← readBetween 0 60 text
  return skipFraction text

/-- Reads the distance from universal time, if there is one. -/
def readOffset (text : List Char) : Option (List Char) :=
  match text with
  | [] => some []
  | c :: rest =>
    if c = 'Z' ∨ c = 'z' then some rest
    else if c = '+' ∨ c = '-' then do
      let (_, rest) ← readBetween 0 23 rest
      let rest ← after? ':' rest
      let (_, rest) ← readBetween 0 59 rest
      return rest
    else some text

/-- Reads a date, and the time of day if it follows. -/
def readMoment (text : List Char) : Option (List Char) := do
  let text ← readDate text
  match text with
  | c :: rest =>
    if (c = 'T' ∨ c = 't' ∨ c = ' ') ∧ startsTime rest then readOffset (← readTime rest)
    else return text
  | [] => return []

/-- Reads digits up to the first other character. An underscore stands between two digits. -/
def readDigits (isDigit : Char → Bool) : List Char → Option (List Char × List Char)
  | [] => some ([], [])
  | c :: rest =>
    if isDigit c then (readDigits isDigit rest).map fun (digits, rest) => (c :: digits, rest)
    else if c = '_' then
      if rest.head?.any isDigit then readDigits isDigit rest else none
    else some ([], c :: rest)

/-- Reads one digit or more. -/
def readDigits1 (isDigit : Char → Bool) (text : List Char) : Option (List Char × List Char) :=
  if text.head?.any isDigit then readDigits isDigit text else none

/-- The value of digits to a base. -/
def digitsValue (base : Nat) (digits : List Char) : Nat :=
  digits.foldl (fun n c =>
    n * base + if c.isDigit then c.toNat - '0'.toNat else c.toLower.toNat - 'a'.toNat + 10) 0

/-- Reads a non-negative integer to a base. -/
def readBased (base : Nat) (isDigit : Char → Bool) (text : List Char) : Option (List Char) := do
  let (digits, rest) ← readDigits1 isDigit text
  if digitsValue base digits < 2 ^ 63 then some rest else none

/-- Whether a character is a hexadecimal digit. -/
def isHexDigit (c : Char) : Bool := c.isDigit || ('a' ≤ c && c ≤ 'f') || ('A' ≤ c && c ≤ 'F')

/-- Reads an exponent after its mark. -/
def readExponent (text : List Char) : Option (Int × List Char) :=
  match text with
  | '-' :: rest =>
    (readDigits1 Char.isDigit rest).map fun (digits, rest) => (-(digitsValue 10 digits : Int), rest)
  | '+' :: rest =>
    (readDigits1 Char.isDigit rest).map fun (digits, rest) => ((digitsValue 10 digits : Int), rest)
  | _ =>
    (readDigits1 Char.isDigit text).map fun (digits, rest) => ((digitsValue 10 digits : Int), rest)

/-- Whether `digits * 10 ^ exponent` rounds to a finite value. From half a unit above the largest
value on, numbers round to infinity. -/
def isFinite (digits : Nat) (exponent : Int) : Bool :=
  let limit := 2 ^ 1024 - 2 ^ 970
  let magnitude : Int := (Nat.toDigits 10 digits).length + exponent
  if digits = 0 ∨ magnitude < 309 then true
  else if 309 < magnitude then false
  else if 0 ≤ exponent then digits * 10 ^ exponent.toNat < limit
  else digits < limit * 10 ^ (-exponent).toNat

/-- Whether a character marks an exponent. -/
def marksExponent (c : Char) : Bool := c = 'e' || c = 'E'

/-- Reads what follows the whole part of a decimal number. -/
def readAfterWhole (negative : Bool) (whole : List Char) (text : List Char) :
    Option (List Char) := do
  let bounded (fraction : List Char) (exponent : Int) (rest : List Char) : Option (List Char) :=
    let digits := digitsValue 10 (whole ++ fraction)
    if negative ∨ isFinite digits (exponent - fraction.length) then some rest else none
  match text with
  | c :: rest =>
    if c = '.' then
      let (fraction, rest) ← readDigits1 Char.isDigit rest
      match rest with
      | e :: more =>
        if marksExponent e then
          let (exponent, more) ← readExponent more
          bounded fraction exponent more
        else bounded fraction 0 rest
      | [] => bounded fraction 0 []
    else if marksExponent c then
      let (exponent, rest) ← readExponent rest
      bounded [] exponent rest
    else if digitsValue 10 whole < 2 ^ 63 + (if negative then 1 else 0) then some text
    else none
  | [] => if digitsValue 10 whole < 2 ^ 63 + (if negative then 1 else 0) then some [] else none

/-- Reads a decimal number after its sign. A leading zero stands alone. -/
def readDecimal (negative : Bool) (text : List Char) : Option (List Char) :=
  match text with
  | 'i' :: 'n' :: 'f' :: rest | 'n' :: 'a' :: 'n' :: rest => some rest
  | '0' :: rest => readAfterWhole negative ['0'] rest
  | _ =>
    (readDigits1 Char.isDigit text).bind fun (whole, rest) => readAfterWhole negative whole rest

/-- Reads a number. Only decimal ones have a sign. -/
def readNumber (text : List Char) : Option (List Char) :=
  match text with
  | '+' :: rest => readDecimal false rest
  | '-' :: rest => readDecimal true rest
  | '0' :: 'x' :: rest => readBased 16 isHexDigit rest
  | '0' :: 'o' :: rest => readBased 8 (fun c => '0' ≤ c && c ≤ '7') rest
  | '0' :: 'b' :: rest => readBased 2 (fun c => c = '0' || c = '1') rest
  | _ => readDecimal false text

/-- Reads a number or a moment. -/
def readScalar (text : List Char) : Option (List Char) :=
  if startsDate text then readMoment text
  else if startsTime text then readTime text
  else readNumber text

end RaggedTrajectory.Toml
