import RaggedTrajectory.Text.CodeRange

/-!
# Blank characters

The white space that a reader of dates skips.
-/

namespace RaggedTrajectory.Text

/-- Code points that are white space. -/
def blanks : CodeRanges :=
  [(0x9, 0xD), (0x20, 0x20), (0x85, 0x85), (0xA0, 0xA0), (0x1680, 0x1680), (0x2000, 0x200A),
   (0x2028, 0x2029), (0x202F, 0x202F), (0x205F, 0x205F), (0x3000, 0x3000)]

/-- Whether a character is white space. -/
def isBlank (c : Char) : Bool := blanks.contains c

/-- The text without the white space it starts with. -/
def dropBlanks (text : List Char) : List Char := text.dropWhile isBlank

end RaggedTrajectory.Text
