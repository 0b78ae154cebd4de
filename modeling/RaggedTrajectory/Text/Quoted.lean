import RaggedTrajectory.Text.GraphemeExtend
import RaggedTrajectory.Text.Unprintable

/-!
# Quoted text

A text shown between quotation marks on one line: quotes, backslashes and the common controls are
escaped by a letter, other characters that would not show by their code point. The same module
writes lists between brackets.
-/

namespace RaggedTrajectory.Text

/-- The hexadecimal digits of a natural number, without leading zeros. -/
def hexDigits (n : Nat) : List Char := Nat.toDigits 16 n

/-- One character inside quotation marks. The apostrophe is escaped on request. -/
def escaped (apostrophe : Bool) (c : Char) : List Char :=
  match c with
  | '\x00' => ['\\', '0']
  | '\t' => ['\\', 't']
  | '\r' => ['\\', 'r']
  | '\n' => ['\\', 'n']
  | '"' => ['\\', '"']
  | '\\' => ['\\', '\\']
  | '\'' => if apostrophe then ['\\', '\''] else ['\'']
  | c =>
    if graphemeExtend.contains c || unprintable.contains c then
      ['\\', 'u', '\x7b'] ++ hexDigits c.toNat ++ ['\x7d']
    else [c]

/-- The text between quotation marks. -/
def quoteWith (apostrophe : Bool) (text : String) : String :=
  String.ofList ('"' :: text.toList.flatMap (escaped apostrophe) ++ ['"'])

/-- The text between quotation marks, apostrophes as they are. -/
def quote (text : String) : String := quoteWith false text

/-- Entries between brackets, separated by commas. -/
def bracketed (entries : List String) : String :=
  "[" ++ ", ".intercalate entries ++ "]"

end RaggedTrajectory.Text
