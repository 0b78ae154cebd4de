import RaggedTrajectory.Toml.Quoted
import RaggedTrajectory.Toml.Scalar
import RaggedTrajectory.Toml.Value

/-!
# Reading TOML documents

A document is a sequence of lines: a comment, a header, or a key with its value. Each reader gives
what it read and the rest of the text.
-/

namespace RaggedTrajectory.Toml

/-- How deep values may be nested, and how many parts a dotted key may have. -/
def maxDepth : Nat := 80

/-- The text without the white space that it starts with. -/
def skipBlanks (text : List Char) : List Char := text.dropWhile isBlank

/-- The text without white space, line ends and comments at its start. -/
def skipFiller : (inComment : Bool) → List Char → List Char
  | _, [] => []
  | inComment, c :: rest =>
    if c = '\n' || (c = '\r' && endsLine rest) then skipFiller false rest
    else if inComment then if isPlain c then skipFiller true rest else c :: rest
    else if isBlank c then skipFiller false rest
    else if c = '#' then skipFiller true rest
    else c :: rest

/-- Reads the rest of a line: white space, a comment, and the line end or the end of the text. -/
def readLineEnd (text : List Char) : Option (List Char) :=
  let text := skipBlanks text
  let text := if text.head? = some '#' then text.dropWhile isPlain else text
  if text = [] then some [] else afterLineEnd? text

/-- Whether a character can stand in a key without quotes. -/
def isBare (c : Char) : Bool := c.isAlphanum || c = '-' || c = '_'

/-- Reads one part of a key. -/
def readKeyPart (text : List Char) : Option (String × List Char) :=
  let named (read : List Char × List Char) : String × List Char := (String.ofList read.1, read.2)
  match text with
  | '"' :: rest => (readBasic (rest.length + 1) rest).map named
  | '\'' :: rest => (readLiteral rest).map named
  | _ =>
    let name := text.takeWhile isBare
    if name = [] then none else some (named (name, text.drop name.length))

/-- Reads a key: the parts before its last one, and that one. -/
def readKey : (parts : Nat) → List Char → Option (List String × String × List Char)
  | 0, _ => none
  | parts + 1, text =>
    match readKeyPart (skipBlanks text) with
    | none => none
    | some (name, rest) =>
      match skipBlanks rest with
      | '.' :: rest =>
        (readKey parts rest).map fun (path, last, rest) => (name :: path, last, rest)
      | rest => some ([], name, rest)

mutual

/-- Reads a value that may be nested `depth` levels deep. -/
def readValue : (fuel depth : Nat) → List Char → Option (Value × List Char)
  | 0, _, _ => none
  | _, _, [] => none
  | fuel + 1, depth, c :: rest =>
    if c = '"' || c = '\'' then
      (readText (c :: rest)).map fun (content, rest) => (.text (String.ofList content), rest)
    else if c = '[' then
      if depth = 0 then none
      else (readItems fuel (depth - 1) rest).map fun (items, rest) => (.array items, rest)
    else if c = '\x7b' then
      if depth = 0 then none
      else
        match skipBlanks rest with
        | '\x7d' :: rest => some (.table .closed [], rest)
        | text =>
          (readMembers fuel (depth - 1) [] text).map fun (members, rest) =>
            (.table .closed members, rest)
    else if c = 't' then
      if ['r', 'u', 'e'].isPrefixOf rest then some (.boolean true, rest.drop 3) else none
    else if c = 'f' then
      if ['a', 'l', 's', 'e'].isPrefixOf rest then some (.boolean false, rest.drop 4) else none
    else (readScalar (c :: rest)).map fun rest => (.scalar, rest)

/-- Reads the items of an array, up to its closing bracket. -/
def readItems : (fuel depth : Nat) → List Char → Option (List Value × List Char)
  | 0, _, _ => none
  | fuel + 1, depth, text =>
    match skipFiller false text with
    | ']' :: rest => some ([], rest)
    | text =>
      match readValue fuel depth text with
      | none => none
      | some (item, rest) =>
        match skipFiller false rest with
        | ',' :: rest =>
          (readItems fuel depth rest).map fun (items, rest) => (item :: items, rest)
        | ']' :: rest => some ([item], rest)
        | _ => none

/-- Reads the members of a table between braces, up to the closing one. -/
def readMembers : (fuel depth : Nat) → Members → List Char → Option (Members × List Char)
  | 0, _, _, _ => none
  | fuel + 1, depth, members, text =>
    match readKey maxDepth text with
    | some (path, key, '=' :: rest) =>
      match readValue fuel depth (skipBlanks rest) with
      | none => none
      | some (value, rest) =>
        match members.insertDotted key value path, skipBlanks rest with
        | some members, ',' :: rest => readMembers fuel depth members rest
        | some members, '\x7d' :: rest => some (members, rest)
        | _, _ => none
    | _ => none

end

/-- Reads a key, its value and the rest of the line. -/
def readPair (text : List Char) : Option (List String × String × Value × List Char) := do
  match ← readKey maxDepth text with
  | (path, key, '=' :: rest) =>
    let (value, rest) ← readValue (2 * text.length) maxDepth (skipBlanks rest)
    return (path, key, value, ← readLineEnd rest)
  | _ => none

/-- Reads a header after its first bracket, and the rest of the line. A second bracket starts one
of several tables. -/
def readHeader (text : List Char) : Option (Bool × List String × String × List Char) := do
  match text with
  | '[' :: rest =>
    match ← readKey maxDepth rest with
    | (path, last, ']' :: ']' :: rest) => return (true, path, last, ← readLineEnd rest)
    | _ => none
  | _ =>
    match ← readKey maxDepth text with
    | (path, last, ']' :: rest) => return (false, path, last, ← readLineEnd rest)
    | _ => none

/-- Reads the lines of a document. Keys go to the table of the last header, whose path is
`current`. -/
def readLines : (fuel : Nat) → Members → (current : List String) → List Char → Option Members
  | 0, _, _, _ => none
  | fuel + 1, root, current, text =>
    match skipBlanks text with
    | [] => some root
    | c :: rest =>
      if c = '#' || c = '\n' || c = '\r' then
        match readLineEnd (c :: rest) with
        | none => none
        | some rest => readLines fuel root current rest
      else if c = '[' then
        match readHeader rest with
        | none => none
        | some (isNext, path, last, rest) =>
          let declare := if isNext then Members.declareNext last else Members.declare last
          match root.updateAt declare path with
          | none => none
          | some root => readLines fuel root (path ++ [last]) rest
      else
        match readPair (c :: rest) with
        | none => none
        | some (path, key, value, rest) =>
          match root.updateAt (Members.insertDotted key value path) current with
          | none => none
          | some root => readLines fuel root current rest

/-- The members of the document that a text stands for. A mark of the byte order at its start does
not count. -/
def parse? (text : List Char) : Option Members :=
  let text := if text.head? = some '\ufeff' then text.drop 1 else text
  readLines (text.length + 1) [] [] text

end RaggedTrajectory.Toml
