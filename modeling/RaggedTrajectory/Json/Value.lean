import RaggedTrajectory.Text.Ascii

/-!
# JSON values and their text

A value keeps a number as it is written and a string as the bytes its escapes stand for, so that
nothing is decided before it is known what the value is read as. `Value.render` writes the compact
form: no blanks, members in their order, and in strings no escape where none is needed.
-/

namespace RaggedTrajectory.Json

/-- A value of the format. -/
inductive Value where
  | null
  | bool (value : Bool)
  /-- A number as it is written. -/
  | number (lexeme : Bytes)
  /-- A string; it is a text if its bytes are well-formed UTF-8. -/
  | string (content : Bytes)
  | array (items : List Value)
  | object (members : List (Bytes × Value))
  deriving Inhabited

/-- One byte inside a string. Quotes, backslashes and controls are escaped. -/
def escapeByte (b : UInt8) : Bytes :=
  if b = Ascii.byte '"' then Ascii.bytes "\\\""
  else if b = Ascii.byte '\\' then Ascii.bytes "\\\\"
  else if b = 0x08 then Ascii.bytes "\\b"
  else if b = 0x0C then Ascii.bytes "\\f"
  else if b = Ascii.byte '\n' then Ascii.bytes "\\n"
  else if b = Ascii.byte '\r' then Ascii.bytes "\\r"
  else if b = Ascii.byte '\t' then Ascii.bytes "\\t"
  else if b < 0x20 then
    Ascii.bytes "\\u00" ++ [Ascii.hexDigit (b.toNat / 16), Ascii.hexDigit (b.toNat % 16)]
  else [b]

/-- A string between quotation marks. -/
def renderString (content : Bytes) : Bytes :=
  Ascii.byte '"' :: content.flatMap escapeByte ++ [Ascii.byte '"']

namespace Value

mutual

/-- The compact text of a value. -/
def render : Value → Bytes
  | null => Ascii.bytes "null"
  | bool true => Ascii.bytes "true"
  | bool false => Ascii.bytes "false"
  | number lexeme => lexeme
  | string content => renderString content
  | array items => Ascii.byte '[' :: renderItems items ++ [Ascii.byte ']']
  | object members => Ascii.byte '\x7b' :: renderMembers members ++ [Ascii.byte '\x7d']

/-- Items separated by commas. -/
def renderItems : List Value → Bytes
  | [] => []
  | [item] => item.render
  | item :: rest => item.render ++ Ascii.byte ',' :: renderItems rest

/-- Members separated by commas. -/
def renderMembers : List (Bytes × Value) → Bytes
  | [] => []
  | [(key, value)] => renderString key ++ Ascii.byte ':' :: value.render
  | (key, value) :: rest =>
    renderString key ++ Ascii.byte ':' :: value.render ++ Ascii.byte ',' :: renderMembers rest

end

end Value

end RaggedTrajectory.Json
