/-!
# Quoted text in TOML documents

A text has four written forms: between double quotes with escapes, between single quotes as it is,
and either of them between three quotes, over several lines. A writer takes the first form of these
that needs no escapes, and escapes only where none will do.
-/

namespace RaggedTrajectory.Toml

/-- Whether a character can stand in a document outside of line ends: all but the controls other
than the tab. -/
def isPlain (c : Char) : Bool := c = '\t' || (' ' ≤ c && c ≠ '\x7f')

/-- Whether a character is white space within a line. -/
def isBlank (c : Char) : Bool := c = ' ' || c = '\t'

/-- Whether the text starts with the second half of a line end. -/
def endsLine (text : List Char) : Bool := text.head? = some '\n'

/-- The text without white space and line ends at its start. -/
def skipSpace : List Char → List Char
  | [] => []
  | c :: rest =>
    if isBlank c || c = '\n' || (c = '\r' && endsLine rest) then skipSpace rest else c :: rest

/-- The text after a line end. -/
def afterLineEnd? : List Char → Option (List Char)
  | [] => none
  | c :: rest =>
    if c = '\n' then some rest
    else if c = '\r' && endsLine rest then some (rest.drop 1)
    else none

/-- The text after a line end, or all of it if there is none. -/
def dropLineEnd (text : List Char) : List Char := (afterLineEnd? text).getD text

/-- The value of a hexadecimal digit. -/
def hexValue? (c : Char) : Option Nat :=
  if '0' ≤ c ∧ c ≤ '9' then some (c.toNat - '0'.toNat)
  else if 'a' ≤ c ∧ c ≤ 'f' then some (c.toNat - 'a'.toNat + 10)
  else if 'A' ≤ c ∧ c ≤ 'F' then some (c.toNat - 'A'.toNat + 10)
  else none

/-- The character of a code point, if there is one. -/
def ofCodePoint? (n : Nat) : Option Char := if n.isValidChar then some (Char.ofNat n) else none

/-- Reads the code point of an escape with `width` digits. -/
def readCodePoint (width : Nat) (text : List Char) : Option (Char × List Char) :=
  let digits := (text.take width).filterMap hexValue?
  if digits.length = width then
    (ofCodePoint? (digits.foldl (fun n digit => n * 16 + digit) 0)).map fun c =>
      (c, text.drop width)
  else none

/-- The character that a letter after a backslash stands for. -/
def simpleEscape? (c : Char) : Option Char :=
  if c = 'b' then some '\x08'
  else if c = 't' then some '\t'
  else if c = 'n' then some '\n'
  else if c = 'f' then some '\x0c'
  else if c = 'r' then some '\r'
  else if c = '"' ∨ c = '\\' then some c
  else none

/-- Reads an escape after its backslash. -/
def readEscape : List Char → Option (Char × List Char)
  | [] => none
  | c :: rest =>
    match simpleEscape? c with
    | some e => some (e, rest)
    | none =>
      if c = 'u' then readCodePoint 4 rest
      else if c = 'U' then readCodePoint 8 rest
      else none

/-- A text that was read, with a character before it. -/
def push (c : Char) (read : List Char × List Char) : List Char × List Char :=
  (c :: read.1, read.2)

/-- Reads the content of a text between double quotes, and its closing quote. -/
def readBasic : (fuel : Nat) → List Char → Option (List Char × List Char)
  | 0, _ => none
  | _, [] => none
  | fuel + 1, c :: rest =>
    if c = '"' then some ([], rest)
    else if c = '\\' then
      (readEscape rest).bind fun (e, rest) => (readBasic fuel rest).map (push e)
    else if isPlain c then (readBasic fuel rest).map (push c)
    else none

/-- Reads the content of a text between single quotes, and its closing quote. -/
def readLiteral : List Char → Option (List Char × List Char)
  | [] => none
  | c :: rest =>
    if c = '\'' then some ([], rest)
    else if isPlain c then (readLiteral rest).map (push c)
    else none

/-- The end of a text between three quotes: up to two more quotes before the closing ones belong
to the text. -/
def readClosing? (quote : Char) (text : List Char) : Option (List Char × List Char) :=
  let quotes := min 5 (text.takeWhile (· = quote)).length
  if 3 ≤ quotes then some (List.replicate (quotes - 3) quote, text.drop quotes) else none

/-- Reads the content of a text between three double quotes, and its closing quotes. A backslash at
the end of a line takes the line end and the white space after it away. -/
def readBasicLines : (fuel : Nat) → List Char → Option (List Char × List Char)
  | 0, _ => none
  | _, [] => none
  | fuel + 1, c :: rest =>
    if c = '"' then
      match readClosing? '"' (c :: rest) with
      | some closing => some closing
      | none => (readBasicLines fuel rest).map (push c)
    else if c = '\\' then
      match afterLineEnd? (rest.dropWhile isBlank) with
      | some rest => readBasicLines fuel (skipSpace rest)
      | none => (readEscape rest).bind fun (e, rest) => (readBasicLines fuel rest).map (push e)
    else if c = '\n' || isPlain c then (readBasicLines fuel rest).map (push c)
    else if c = '\r' && endsLine rest then readBasicLines fuel rest
    else none

/-- Reads the content of a text between three single quotes, and its closing quotes. -/
def readLiteralLines : List Char → Option (List Char × List Char)
  | [] => none
  | c :: rest =>
    if c = '\'' then
      match readClosing? '\'' (c :: rest) with
      | some closing => some closing
      | none => (readLiteralLines rest).map (push c)
    else if c = '\n' || isPlain c then (readLiteralLines rest).map (push c)
    else if c = '\r' && endsLine rest then readLiteralLines rest
    else none

/-- Reads a text in any of its forms. A line end right after three quotes does not count. -/
def readText (text : List Char) : Option (List Char × List Char) :=
  match text with
  | '"' :: '"' :: '"' :: rest => readBasicLines (rest.length + 1) (dropLineEnd rest)
  | '"' :: rest => readBasic (rest.length + 1) rest
  | '\'' :: '\'' :: '\'' :: rest => readLiteralLines (dropLineEnd rest)
  | '\'' :: rest => readLiteral rest
  | _ => none

/-- The written forms of a text. -/
inductive QuoteForm where
  | basic
  | literal
  | basicLines
  | literalLines
  deriving DecidableEq, Repr

/-- Whether a character can stand in no form without an escape. -/
def isControl (c : Char) : Bool := c ≠ '\n' && !isPlain c

/-- Whether three quotes stand in a row. -/
def hasTriple (quote : Char) : List Char → Bool
  | a :: b :: c :: rest =>
    (a = quote && b = quote && c = quote) || hasTriple quote (b :: c :: rest)
  | _ => false

/-- The form in which a text is written. -/
def QuoteForm.of (text : List Char) : QuoteForm :=
  let clean := !text.any isControl
  let oneLine := !text.contains '\n'
  if clean && oneLine && !text.contains '\\' && !text.contains '"' then .basic
  else if clean && oneLine && !text.contains '\'' then .literal
  else if clean && !text.contains '\\' && !hasTriple '"' text then .basicLines
  else if clean && !hasTriple '\'' text then .literalLines
  else if oneLine then .basic
  else .basicLines

/-- The upper-case hexadecimal digits of a code point below 256, with two zeros before them. -/
def codePointDigits (n : Nat) : List Char :=
  let digit (n : Nat) : Char := (Nat.digitChar n).toUpper
  ['0', '0', digit (n / 16), digit (n % 16)]

/-- A character other than quotes and line ends between double quotes. -/
def escaped (c : Char) : List Char :=
  if c = '\x08' then ['\\', 'b']
  else if c = '\t' then ['\\', 't']
  else if c = '\x0c' then ['\\', 'f']
  else if c = '\r' then ['\\', 'r']
  else if c = '\\' then ['\\', '\\']
  else if isPlain c then [c]
  else '\\' :: 'u' :: codePointDigits c.toNat

/-- The content of a text between double quotes. -/
def escapeBasic (text : List Char) : List Char :=
  text.flatMap fun c =>
    if c = '"' then ['\\', '"'] else if c = '\n' then ['\\', 'n'] else escaped c

/-- The content of a text between three double quotes: of three quotes in a row the third one is
escaped. `quotes` counts the ones that came before. -/
def escapeLines (quotes : Nat) : List Char → List Char
  | [] => []
  | c :: rest =>
    if c = '"' then
      if quotes < 2 then '"' :: escapeLines (quotes + 1) rest
      else '\\' :: '"' :: escapeLines 0 rest
    else if c = '\n' then '\n' :: escapeLines 0 rest
    else escaped c ++ escapeLines 0 rest

/-- The line end after three opening quotes: none for a text of one line. -/
def openingLineEnd (text : List Char) : List Char := if text.contains '\n' then ['\n'] else []

/-- A text in its written form. -/
def renderText (text : List Char) : List Char :=
  match QuoteForm.of text with
  | .basic => '"' :: escapeBasic text ++ ['"']
  | .literal => '\'' :: text ++ ['\'']
  | .basicLines =>
    ['"', '"', '"'] ++ openingLineEnd text ++ escapeLines 0 text ++ ['"', '"', '"']
  | .literalLines => ['\'', '\'', '\''] ++ openingLineEnd text ++ text ++ ['\'', '\'', '\'']

end RaggedTrajectory.Toml
