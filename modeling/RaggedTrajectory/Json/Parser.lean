import RaggedTrajectory.Json.Value

/-!
# Reading JSON text

The grammar of RFC 8259 over bytes. Each reader returns what it read and the rest of the input.
A string may hold bytes that are no text, and escapes of surrogates that stand alone: they give
three bytes that no text contains, so that they only matter where a text is asked for.
-/

namespace RaggedTrajectory.Json

/-- Whether a byte is white space between tokens. -/
def isSpace (b : UInt8) : Bool :=
  b = 0x20 || b = Ascii.byte '\n' || b = Ascii.byte '\r' || b = Ascii.byte '\t'

/-- The input without the white space it starts with. -/
def skipSpace (input : Bytes) : Bytes := input.dropWhile isSpace

/-- The byte that a letter after a backslash stands for. -/
def simpleEscape? (b : UInt8) : Option UInt8 :=
  if b = Ascii.byte '"' ∨ b = Ascii.byte '\\' ∨ b = Ascii.byte '/' then some b
  else if b = Ascii.byte 'b' then some 0x08
  else if b = Ascii.byte 'f' then some 0x0C
  else if b = Ascii.byte 'n' then some 0x0A
  else if b = Ascii.byte 'r' then some 0x0D
  else if b = Ascii.byte 't' then some 0x09
  else none

/-- The value of four hexadecimal digits. -/
def unit? (a b c d : UInt8) : Option Nat := do
  let a ← Ascii.hexValue? a
  let b ← Ascii.hexValue? b
  let c ← Ascii.hexValue? c
  let d ← Ascii.hexValue? d
  return ((a * 16 + b) * 16 + c) * 16 + d

/-- The bytes of a code point in the scheme of UTF-8, surrogates included. -/
def codePointBytes (n : Nat) : Bytes :=
  if n < 0x80 then [UInt8.ofNat n]
  else if n < 0x800 then [UInt8.ofNat (0xC0 + n / 64), UInt8.ofNat (0x80 + n % 64)]
  else if n < 0x10000 then
    [UInt8.ofNat (0xE0 + n / 4096), UInt8.ofNat (0x80 + n / 64 % 64), UInt8.ofNat (0x80 + n % 64)]
  else
    [UInt8.ofNat (0xF0 + n / 262144), UInt8.ofNat (0x80 + n / 4096 % 64),
     UInt8.ofNat (0x80 + n / 64 % 64), UInt8.ofNat (0x80 + n % 64)]

/-- The code point of a pair of surrogates, if these are a high and a low one. -/
def pair? (high low : Nat) : Option Nat :=
  if 0xD800 ≤ high ∧ high < 0xDC00 ∧ 0xDC00 ≤ low ∧ low < 0xE000 then
    some (0x10000 + (high - 0xD800) * 1024 + (low - 0xDC00))
  else none

/-- The low surrogate that is escaped at the start of the input, with a given high one before it:
their code point. -/
def pairAhead? (high : Nat) : Bytes → Option Nat
  | backslash :: u :: a :: b :: c :: d :: _ =>
    if backslash = Ascii.byte '\\' ∧ u = Ascii.byte 'u' then
      (unit? a b c d).bind (pair? high)
    else none
  | _ => none

/-- Reads a string after its opening quotation mark: its content, and the rest of the input. -/
def readString : (fuel : Nat) → Bytes → Option (Bytes × Bytes)
  | 0, _ => none
  | _, [] => none
  | fuel + 1, b :: rest =>
    if b = Ascii.byte '"' then some ([], rest)
    else if b = Ascii.byte '\\' then
      match rest with
      | [] => none
      | letter :: rest =>
        match simpleEscape? letter with
        | some c => (readString fuel rest).map fun (content, rest) => (c :: content, rest)
        | none =>
          if letter = Ascii.byte 'u' then
            match rest with
            | d₁ :: d₂ :: d₃ :: d₄ :: rest =>
              match unit? d₁ d₂ d₃ d₄ with
              | none => none
              | some unit =>
                match pairAhead? unit rest with
                | some point =>
                  (readString fuel (rest.drop 6)).map fun (content, rest) =>
                    (codePointBytes point ++ content, rest)
                | none =>
                  (readString fuel rest).map fun (content, rest) =>
                    (codePointBytes unit ++ content, rest)
            | _ => none
          else none
    else if b < 0x20 then none
    else (readString fuel rest).map fun (content, rest) => (b :: content, rest)

/-- The digits at the start of the input, and the rest. -/
def takeDigits (input : Bytes) : Bytes × Bytes :=
  (input.takeWhile Ascii.isDigit, input.dropWhile Ascii.isDigit)

/-- The fraction of a number, with its point. An input without one has an empty fraction. -/
def readFraction : Bytes → Option (Bytes × Bytes)
  | [] => some ([], [])
  | b :: rest =>
    if b = Ascii.byte '.' then
      match takeDigits rest with
      | ([], _) => none
      | (digits, rest) => some (b :: digits, rest)
    else some ([], b :: rest)

/-- The sign of an exponent. -/
def readSign : Bytes → Bytes × Bytes
  | [] => ([], [])
  | b :: rest =>
    if b = Ascii.byte '+' ∨ b = Ascii.byte '-' then ([b], rest) else ([], b :: rest)

/-- The exponent of a number, with its mark. An input without one has an empty exponent. -/
def readExponent : Bytes → Option (Bytes × Bytes)
  | [] => some ([], [])
  | b :: rest =>
    if b = Ascii.byte 'e' ∨ b = Ascii.byte 'E' then
      let (sign, rest) := readSign rest
      match takeDigits rest with
      | ([], _) => none
      | (digits, rest) => some (b :: sign ++ digits, rest)
    else some ([], b :: rest)

/-- A number without its sign. A leading zero stands alone before the point. -/
def readUnsigned (input : Bytes) : Option (Bytes × Bytes) :=
  match takeDigits input with
  | ([], _) => none
  | (lead :: digits, rest) =>
    if lead = Ascii.byte '0' ∧ digits ≠ [] then none
    else do
      let (fraction, rest) ← readFraction rest
      let (exponent, rest) ← readExponent rest
      return (lead :: digits ++ fraction ++ exponent, rest)

/-- A number as it is written, and the rest of the input. -/
def readNumber : Bytes → Option (Bytes × Bytes)
  | [] => none
  | b :: rest =>
    if b = Ascii.byte '-' then
      (readUnsigned rest).map fun (lexeme, rest) => (b :: lexeme, rest)
    else readUnsigned (b :: rest)

/-- The input after a given word at its start. -/
def afterWord (word : String) (input : Bytes) : Option Bytes :=
  if (Ascii.bytes word).isPrefixOf input then some (input.drop (Ascii.bytes word).length)
  else none

mutual

/-- Reads a value. -/
def readValue : (fuel : Nat) → Bytes → Option (Value × Bytes)
  | 0, _ => none
  | fuel + 1, input =>
    match skipSpace input with
    | [] => none
    | b :: rest =>
      if b = Ascii.byte '"' then
        (readString (rest.length + 1) rest).map fun (content, rest) => (.string content, rest)
      else if b = Ascii.byte '[' then
        match skipSpace rest with
        | [] => none
        | c :: after =>
          if c = Ascii.byte ']' then some (.array [], after)
          else (readItems fuel (c :: after)).map fun (items, rest) => (.array items, rest)
      else if b = Ascii.byte '\x7b' then
        match skipSpace rest with
        | [] => none
        | c :: after =>
          if c = Ascii.byte '\x7d' then some (.object [], after)
          else (readMembers fuel (c :: after)).map fun (members, rest) => (.object members, rest)
      else if b = Ascii.byte 'n' then
        (afterWord "ull" rest).map fun rest => (.null, rest)
      else if b = Ascii.byte 't' then
        (afterWord "rue" rest).map fun rest => (.bool true, rest)
      else if b = Ascii.byte 'f' then
        (afterWord "alse" rest).map fun rest => (.bool false, rest)
      else (readNumber (b :: rest)).map fun (lexeme, rest) => (.number lexeme, rest)

/-- Reads one item or more, up to the closing bracket. -/
def readItems : (fuel : Nat) → Bytes → Option (List Value × Bytes)
  | 0, _ => none
  | fuel + 1, input =>
    match readValue fuel input with
    | none => none
    | some (item, rest) =>
      match skipSpace rest with
      | [] => none
      | b :: rest =>
        if b = Ascii.byte ']' then some ([item], rest)
        else if b = Ascii.byte ',' then
          (readItems fuel rest).map fun (items, rest) => (item :: items, rest)
        else none

/-- Reads one member or more, up to the closing brace. -/
def readMembers : (fuel : Nat) → Bytes → Option (List (Bytes × Value) × Bytes)
  | 0, _ => none
  | fuel + 1, input =>
    match skipSpace input with
    | [] => none
    | quote :: rest =>
      if quote = Ascii.byte '"' then
        match readString (rest.length + 1) rest with
        | none => none
        | some (key, rest) =>
          match skipSpace rest with
          | [] => none
          | colon :: rest =>
            if colon = Ascii.byte ':' then
              match readValue fuel rest with
              | none => none
              | some (value, rest) =>
                match skipSpace rest with
                | [] => none
                | b :: rest =>
                  if b = Ascii.byte '\x7d' then some ([(key, value)], rest)
                  else if b = Ascii.byte ',' then
                    (readMembers fuel rest).map fun (members, rest) =>
                      ((key, value) :: members, rest)
                  else none
            else none
      else none

end

/-- The value that a text stands for: one value with nothing but white space around it. Every
call of a reader consumes input or is followed by one that does, which bounds the depth. -/
def Value.parse? (input : Bytes) : Option Value :=
  match readValue (2 * input.length + 2) input with
  | none => none
  | some (value, rest) => if skipSpace rest = [] then some value else none

end RaggedTrajectory.Json
