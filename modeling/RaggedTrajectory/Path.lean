/-!
# Paths

A path is a text whose parts are separated by slashes. Empty parts and the part `.` name nothing.
The last part that names something is the file name, unless it is `..`, which names a directory
above. The twin of a path is the path of the same place with `_uncertain` before the extension.

* `Path.joined_segments`: a text is the join of its parts.
-/

namespace RaggedTrajectory

/-- A path. -/
structure Path where
  text : String
  deriving DecidableEq, Repr

namespace Path

/-- The parts of a text between slashes. -/
def segments : List Char → List (List Char)
  | [] => [[]]
  | c :: rest =>
    if c = '/' then [] :: segments rest
    else
      match segments rest with
      | [] => [[c]]
      | first :: others => (c :: first) :: others

/-- Parts with slashes between them. -/
def joined : List (List Char) → List Char
  | [] => []
  | [segment] => segment
  | segment :: rest => segment ++ '/' :: joined rest

/-- Whether a part names nothing. -/
def isIdle (segment : List Char) : Bool := segment = [] ∨ segment = ['.']

/-- What a path starts at: the root, the working directory if it is named, or nothing. The rest
is behind it. -/
def splitStart : List Char → List Char × List Char
  | '/' :: rest => (['/'], rest)
  | ['.'] => (['.'], [])
  | '.' :: '/' :: rest => (['.'], '/' :: rest)
  | rest => ([], rest)

/-- The parts of a text, the last one first, without the idle ones at the end. -/
def namedReversed (text : List Char) : List (List Char) :=
  (segments text).reverse.dropWhile isIdle

/-- The last part that names something, unless it is the part for the directory above. -/
def lastName? (text : List Char) : Option (List Char) :=
  (namedReversed (splitStart text).2).head?.filter (· ≠ ['.', '.'])

/-- The text without its last named part and what is idle before it. -/
def withoutLast (text : List Char) : List Char :=
  let (start, rest) := splitStart text
  start ++ joined ((namedReversed rest).drop 1 |>.dropWhile isIdle).reverse

/-- A name as stem and extension, split at the last dot. A dot at the start of a name does not
count. -/
def splitName (name : List Char) : List Char × Option (List Char) :=
  let after := name.reverse.takeWhile (· ≠ '.')
  let before := (name.reverse.drop (after.length + 1)).reverse
  if before = [] then (name, none) else (before, some after.reverse)

/-- The file name. -/
def fileName? (path : Path) : Option String := (lastName? path.text.toList).map String.ofList

/-- The directory of a file; empty if the path is only a file name. -/
def parent? (path : Path) : Option Path :=
  (path.fileName?).map fun _ => ⟨String.ofList (withoutLast path.text.toList)⟩

/-- The file name without its extension. -/
def stem? (path : Path) : Option String :=
  (lastName? path.text.toList).map fun name => String.ofList (splitName name).1

/-- What follows the last dot of the file name. -/
def extension? (path : Path) : Option String :=
  ((lastName? path.text.toList).bind fun name => (splitName name).2).map String.ofList

/-- A name behind a path, with a slash between them where one is needed. -/
def child (directory : List Char) (name : List Char) : List Char :=
  if directory = [] ∨ directory.getLast? = some '/' then directory ++ name
  else directory ++ '/' :: name

/-- The path with another file name. Where there is none, the name comes behind the path. -/
def withFileName (path : Path) (name : String) : Path :=
  let text := path.text.toList
  let directory := if (lastName? text).isSome then withoutLast text else text
  ⟨String.ofList (child directory name.toList)⟩

/-- What is inserted into the name of a twin. -/
def twinMark : String := "_uncertain"

/-- The file name of a twin. -/
def twinName (stem : String) : Option String → String
  | none => stem ++ twinMark
  | some extension => stem ++ twinMark ++ "." ++ extension

/-- The path beside a path where the uncertain population goes. -/
def uncertainTwin (path : Path) : Path :=
  path.withFileName (twinName (path.stem?.getD "") path.extension?)

/-- The directory in which a file has to be made: the working directory for a bare name. -/
def directory (path : Path) : Path :=
  match path.parent? with
  | some ⟨""⟩ | none => ⟨"."⟩
  | some parent => parent

theorem segments_ne_nil (text : List Char) : segments text ≠ [] := by
  cases text with
  | nil => simp [segments]
  | cons c rest =>
    simp only [segments]
    split
    · simp
    · split <;> simp

theorem joined_segments (text : List Char) : joined (segments text) = text := by
  induction text with
  | nil => rfl
  | cons c rest ih =>
    simp only [segments]
    split
    · next slash =>
      cases h : segments rest with
      | nil => exact absurd h (segments_ne_nil rest)
      | cons first others =>
        rw [h] at ih
        simp [joined, ih, slash]
    · split
      · next none => exact absurd none (segments_ne_nil rest)
      · next first others some =>
        rw [some] at ih
        cases others with
        | nil => simp_all [joined]
        | cons second others => simp_all [joined]

end Path

end RaggedTrajectory
