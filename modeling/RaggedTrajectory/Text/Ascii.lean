import RaggedTrajectory.Bytes

/-!
# Bytes of the seven-bit characters

Formats whose grammar is written with these characters are read and written byte by byte.
-/

namespace RaggedTrajectory.Ascii

/-- The byte of a seven-bit character. -/
def byte (c : Char) : UInt8 := UInt8.ofNat c.toNat

/-- The bytes of a text of seven-bit characters. -/
def bytes (text : String) : Bytes := text.toList.map byte

/-- Whether a byte is a decimal digit. -/
def isDigit (b : UInt8) : Bool := byte '0' ≤ b && b ≤ byte '9'

/-- The value of a decimal digit. -/
def digitValue (b : UInt8) : Nat := b.toNat - (byte '0').toNat

/-- The value of a hexadecimal digit of either case. -/
def hexValue? (b : UInt8) : Option Nat :=
  if isDigit b then some (digitValue b)
  else if byte 'a' ≤ b ∧ b ≤ byte 'f' then some (b.toNat - (byte 'a').toNat + 10)
  else if byte 'A' ≤ b ∧ b ≤ byte 'F' then some (b.toNat - (byte 'A').toNat + 10)
  else none

/-- The lower-case hexadecimal digit of a value below sixteen. -/
def hexDigit (n : Nat) : UInt8 :=
  if n < 10 then UInt8.ofNat (n + (byte '0').toNat) else UInt8.ofNat (n - 10 + (byte 'a').toNat)

/-- The decimal digits of a natural number. -/
def decimal (n : Nat) : Bytes := (Nat.toDigits 10 n).map byte

end RaggedTrajectory.Ascii
