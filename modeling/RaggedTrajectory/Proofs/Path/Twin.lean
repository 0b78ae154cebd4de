import RaggedTrajectory.Destinations
import RaggedTrajectory.Proofs.Path.Components

/-!
# Twins of paths

The twin of a path lies beside it. Its name is the stem of the file name with a mark behind it, and
the extension, if there is one. The extension of the twin is found where the one of the path was, so
the twin says what the path is: no two paths share one.

* `Path.splitName_twinOf`: stem and extension of the name of a twin.
* `Path.twinOf_injective`: no two names share a twin.
* `Path.uncertainTwin_not_same`: the twin is another path, even of a path without a file name.
* `Path.isBeside_uncertainTwin`: the twins of paths with file names.
-/

namespace RaggedTrajectory

namespace Path

/-! ## Stem and extension -/

/-- What has no dots is taken whole from the end of a name. -/
theorem takeWhile_reverse_append {after : List Char} (single : '.' ∉ after) (front : List Char) :
    (after.reverse ++ front).takeWhile (· ≠ '.') = after.reverse ++ front.takeWhile (· ≠ '.') := by
  apply List.takeWhile_append_of_pos
  intro c mem
  have other : c ≠ '.' := fun dot => single (List.mem_reverse.1 (dot ▸ mem))
  exact decide_eq_true other

/-- A name with a dot that is not its first character is split at the last one. -/
theorem splitName_append_dot {before after : List Char} (some : before ≠ []) (last : '.' ∉ after) :
    splitName (before ++ '.' :: after) = (before, Option.some after) := by
  have ordered : (before ++ '.' :: after).reverse = after.reverse ++ '.' :: before.reverse := by
    simp
  have behind : (after.reverse ++ '.' :: before.reverse).takeWhile (· ≠ '.') = after.reverse := by
    rw [takeWhile_reverse_append last, List.takeWhile_cons_of_neg (by simp), List.append_nil]
  rw [splitName, ordered, behind, List.drop_append, List.drop_of_length_le (by simp),
    Nat.add_sub_cancel_left]
  simp [some]

/-- A name without such a dot has no extension. -/
theorem splitName_of_not_mem {name : List Char} (single : '.' ∉ name.drop 1) :
    splitName name = (name, none) := by
  cases name with
  | nil => rfl
  | cons c rest =>
    -- At most one character is left, and it is the first one of the name.
    have behind : '.' ∉ rest := single
    rw [splitName, List.reverse_cons, takeWhile_reverse_append behind,
      List.drop_of_length_le (by simp)]
    rfl

/-- There are no other names. -/
theorem splitName_cases (name : List Char) :
    '.' ∉ name.drop 1 ∨
      ∃ before after, before ≠ [] ∧ '.' ∉ after ∧ name = before ++ '.' :: after := by
  by_cases dot : '.' ∈ name.drop 1
  · right
    obtain ⟨after, before, reversed, single⟩ :=
      List.eq_append_cons_of_mem (List.mem_reverse.2 dot)
    have split : name.drop 1 = before.reverse ++ '.' :: after.reverse := by
      rw [← List.reverse_reverse (name.drop 1), reversed]
      simp
    obtain ⟨c, rest, rfl⟩ : ∃ c rest, name = c :: rest :=
      List.exists_cons_of_ne_nil fun none => by simp [none] at dot
    refine ⟨c :: before.reverse, after.reverse, List.cons_ne_nil _ _, ?_, ?_⟩
    · exact fun mem => single (List.mem_reverse.1 mem)
    · exact congrArg (c :: ·) split
  · exact .inl dot

/-- A name from its stem and its extension. -/
def joinName : List Char × Option (List Char) → List Char
  | (stem, none) => stem
  | (stem, some extension) => stem ++ '.' :: extension

theorem joinName_splitName (name : List Char) : joinName (splitName name) = name := by
  rcases splitName_cases name with single | ⟨before, after, some, last, rfl⟩
  · rw [splitName_of_not_mem single]
    rfl
  · rw [splitName_append_dot some last]
    rfl

/-! ## Names of twins -/

/-- The characters of the mark of a twin. -/
def mark : List Char := twinMark.toList

/-- The name of the twin of a file. -/
def twinOf (name : List Char) : List Char :=
  joinName ((splitName name).1 ++ mark, (splitName name).2)

/-- The name of a twin has the mark in its stem, and the extension of the name. -/
theorem splitName_twinOf {name : List Char} (some : name ≠ []) :
    splitName (twinOf name) = ((splitName name).1 ++ mark, (splitName name).2) := by
  rcases splitName_cases name with single | ⟨before, after, filled, last, rfl⟩
  · rw [twinOf, splitName_of_not_mem single]
    apply splitName_of_not_mem
    obtain ⟨c, rest, rfl⟩ := List.exists_cons_of_ne_nil some
    show '.' ∉ rest ++ mark
    rw [List.mem_append]
    exact not_or.2 ⟨single, by decide +kernel⟩
  · rw [twinOf, splitName_append_dot filled last]
    exact splitName_append_dot (by simp [filled]) last

/-- No two names share a twin. -/
theorem twinOf_injective {name other : List Char} (some : name ≠ []) (more : other ≠ [])
    (same : twinOf name = twinOf other) : name = other := by
  have split := splitName_twinOf some
  rw [same, splitName_twinOf more] at split
  obtain ⟨stems, extensions⟩ := Prod.mk.inj split
  rw [← joinName_splitName name, ← joinName_splitName other]
  congr 1
  exact Prod.ext (List.append_cancel_right stems.symm) extensions.symm

/-- No name is its own twin. -/
theorem twinOf_ne {name : List Char} (some : name ≠ []) : twinOf name ≠ name := by
  intro same
  have split := splitName_twinOf some
  rw [same] at split
  have stem := congrArg (fun parts => parts.1.length) split
  have long : mark.length = 10 := by decide +kernel
  dsimp only at stem
  rw [List.length_append, long] at stem
  omega

theorem mem_twinOf_iff {name : List Char} {c : Char} : c ∈ twinOf name ↔ c ∈ name ∨ c ∈ mark := by
  have member : ∀ stem extension,
      c ∈ joinName (stem ++ mark, extension) ↔ c ∈ joinName (stem, extension) ∨ c ∈ mark := by
    rintro stem (_ | extension)
    · exact List.mem_append
    · simp only [joinName, List.mem_append]
      exact or_right_comm
  rw [twinOf, member]
  show c ∈ joinName (splitName name) ∨ c ∈ mark ↔ c ∈ name ∨ c ∈ mark
  rw [joinName_splitName]

/-- A twin can be a file name. -/
theorem isName_twinOf {name : List Char} (proper : IsName name) : IsName (twinOf name) := by
  have marked : '_' ∈ twinOf name := mem_twinOf_iff.2 (.inr (by decide +kernel))
  refine ⟨fun slash => ?_, isNamed_iff.2 ⟨?_, ?_⟩, ?_⟩
  · rcases mem_twinOf_iff.1 slash with slash | slash
    · exact proper.single slash
    · exact absurd slash (by decide +kernel)
  -- What names nothing has no mark.
  · exact fun same => absurd (same ▸ marked) (by decide)
  · exact fun same => absurd (same ▸ marked) (by decide)
  · exact fun same => absurd (same ▸ marked) (by decide)

/-! ## Paths of twins -/

section Text

variable {path : Path} {name : List Char}

theorem toList_twinName (stem : List Char) (extension : Option (List Char)) :
    (twinName (String.ofList stem) (extension.map String.ofList)).toList =
      joinName (stem ++ mark, extension) := by
  cases extension with
  | none => simp [twinName, joinName, mark]
  | some extension => simp [twinName, joinName, mark]

/-- The twin of a path with a file name is in the same directory. -/
theorem text_uncertainTwin (found : lastName? path.text.toList = some name) :
    path.uncertainTwin.text.toList = child (withoutLast path.text.toList) (twinOf name) := by
  rw [uncertainTwin, withFileName, stem?, extension?, found]
  dsimp only
  rw [String.toList_ofList]
  simp only [Option.map_some, Option.getD_some, Option.bind_some, toList_twinName]
  rfl

/-- The twin of a path without a file name is below it. -/
theorem text_uncertainTwin_of_none (none : lastName? path.text.toList = none) :
    path.uncertainTwin.text.toList = child path.text.toList mark := by
  rw [uncertainTwin, withFileName, stem?, extension?, none]
  dsimp only
  rw [String.toList_ofList]
  rfl

end Text

section Components

variable {path other : Path}

theorem exists_lastName? (named : path.fileName?.isSome) :
    ∃ name, lastName? path.text.toList = some name ∧ IsName name := by
  rw [fileName?, Option.isSome_map] at named
  obtain ⟨name, found⟩ := Option.isSome_iff_exists.1 named
  exact ⟨name, found, (lastName?_eq_some found).2⟩

theorem isName_mark : IsName mark where
  single := by decide +kernel
  named := by decide +kernel
  notAbove := by decide +kernel

/-- The twin of a path is another path, also where there is no file name. -/
theorem uncertainTwin_not_same (path : Path) : ¬path.uncertainTwin.Same path := by
  rw [Same, components, components]
  cases found : lastName? path.text.toList with
  | none =>
    -- The twin has one component more.
    rw [text_uncertainTwin_of_none found, componentsOf_child _ isName_mark]
    intro same
    have length := congrArg (fun parts => parts.2.length) same
    simp at length
  | some name =>
    -- The twin has another last component.
    have proper := (lastName?_eq_some found).2
    rw [text_uncertainTwin found, componentsOf_child _ (isName_twinOf proper),
      componentsOf_of_lastName? found]
    intro same
    have last := List.append_inj_right' (Prod.mk.inj same).2 rfl
    exact twinOf_ne (isNamed_iff.1 proper.named).1 (List.cons.inj last).1

/-- Paths whose twins are the same have the same directory and the same file name. -/
theorem same_of_uncertainTwin (named : path.fileName?.isSome) (also : other.fileName?.isSome)
    (same : path.uncertainTwin.Same other.uncertainTwin) :
    path.parent?.map components = other.parent?.map components ∧
      path.fileName? = other.fileName? := by
  obtain ⟨name, found, proper⟩ := exists_lastName? named
  obtain ⟨second, foundOther, properOther⟩ := exists_lastName? also
  rw [Same, components, components, text_uncertainTwin found, text_uncertainTwin foundOther,
    componentsOf_child _ (isName_twinOf proper),
    componentsOf_child _ (isName_twinOf properOther)] at same
  -- The directories are the components before the names of the twins.
  obtain ⟨start, parts⟩ := Prod.mk.inj same
  obtain ⟨front, last⟩ := List.append_inj' parts rfl
  obtain rfl := twinOf_injective (isNamed_iff.1 proper.named).1
    (isNamed_iff.1 properOther.named).1 (List.cons.inj last).1
  rw [parent?, parent?, fileName?, fileName?, found, foundOther]
  refine ⟨?_, rfl⟩
  simp only [Option.map_some, components, String.toList_ofList]
  exact congrArg some (Prod.ext start front)

/-- Paths with the same directory and the same file name are the same. -/
theorem same_of_fileName? (named : path.fileName?.isSome) (names : path.fileName? = other.fileName?)
    (parents : path.parent?.map components = other.parent?.map components) : path.Same other := by
  have also : other.fileName?.isSome := names ▸ named
  obtain ⟨name, found, -⟩ := exists_lastName? named
  obtain ⟨second, foundOther, -⟩ := exists_lastName? also
  rw [fileName?, fileName?, found, foundOther] at names
  obtain rfl := String.ofList_injective (Option.some.inj names)
  rw [parent?, parent?, fileName?, fileName?, found, foundOther] at parents
  simp only [Option.map_some, components, String.toList_ofList] at parents
  rw [Same, components, components, componentsOf_of_lastName? found,
    componentsOf_of_lastName? foundOther, Option.some.inj parents]

end Components

/-- The twin that is asked for beside a primary file is another path. -/
theorem not_same_of_derive {primary twin : Path} {asked : Bool}
    (derived : (Destinations.derive primary asked).uncertain = some twin) : ¬twin.Same primary := by
  cases asked with
  | false => cases derived
  | true =>
    obtain rfl := Option.some.inj derived
    exact primary.uncertainTwin_not_same

/-- What the twin of a path has in common with it, and what not. -/
structure IsBeside (path twin : Path) : Prop where
  /-- The twin is in the same directory. -/
  parent : twin.parent? = path.parent?
  /-- It has the same extension, or none as well. -/
  extension : twin.extension? = path.extension?
  stem : twin.stem? = path.stem?.map (· ++ "_uncertain")
  /-- Its name is the stem with the mark behind it, and the extension. -/
  name : twin.fileName? = path.stem?.map fun stem =>
    stem ++ "_uncertain" ++ (path.extension?.map ("." ++ ·)).getD ""
  /-- It is another path. -/
  different : ¬twin.Same path

/-- The name of a twin from the texts of stem and extension. -/
theorem ofList_twinOf (name : List Char) :
    String.ofList (twinOf name) = String.ofList (splitName name).1 ++ "_uncertain" ++
      (((splitName name).2.map String.ofList).map ("." ++ ·)).getD "" := by
  apply String.toList_inj.1
  rw [String.toList_ofList, twinOf]
  cases (splitName name).2 with
  | none => simp [joinName, mark, twinMark]
  | some extension => simp [joinName, mark, twinMark]

theorem isBeside_of_named {path : Path} (named : path.fileName?.isSome) :
    path.IsBeside path.uncertainTwin := by
  obtain ⟨name, found, proper⟩ := exists_lastName? named
  have text := text_uncertainTwin found
  have properTwin := isName_twinOf proper
  have last := lastName?_child (withoutLast path.text.toList) properTwin
  have split := splitName_twinOf (isNamed_iff.1 proper.named).1
  refine ⟨?_, ?_, ?_, ?_, path.uncertainTwin_not_same⟩
  · rw [parent?, parent?, fileName?, fileName?, text, last, found,
      withoutLast_child found properTwin]
    rfl
  · rw [extension?, extension?, text, last, found, Option.bind_some, Option.bind_some, split]
  · rw [stem?, stem?, text, last, found, Option.map_some, Option.map_some, split,
      String.ofList_append]
    rfl
  · rw [fileName?, stem?, extension?, text, last, found]
    simp only [Option.map_some, Option.bind_some, ofList_twinOf]

/-- The twin of a path with a file name is beside it, and says which path it is: paths whose twins
are the same have the same directory and the same file name, so two files of a directory do not
share a twin. No run has the same path for both of its files. -/
theorem isBeside_uncertainTwin {path other : Path} (named : path.fileName?.isSome)
    (also : other.fileName?.isSome) :
    path.IsBeside path.uncertainTwin ∧
      (path.uncertainTwin.Same other.uncertainTwin →
        path.parent?.map components = other.parent?.map components ∧
          path.fileName? = other.fileName?) ∧
      (¬path.Same other → ¬path.uncertainTwin.Same other.uncertainTwin) ∧
      ∀ (primary : Path) (asked : Bool) (twin : Path),
        (Destinations.derive primary asked).uncertain = some twin → ¬twin.Same primary := by
  refine ⟨isBeside_of_named named, same_of_uncertainTwin named also, ?_, ?_⟩
  · intro apart same
    obtain ⟨parents, names⟩ := same_of_uncertainTwin named also same
    exact apart (same_of_fileName? named names parents)
  · intro primary asked twin derived
    exact not_same_of_derive derived

/-- A name that starts with dots and ends in one: the extension is there, and is empty. -/
theorem isBeside_uncertainTwin_dots :
    Path.fileName? ⟨"out/./..a.b."⟩ = some "..a.b." ∧
      Path.fileName? ⟨"out//..a.b./"⟩ = some "..a.b." ∧
      Path.uncertainTwin ⟨"out/./..a.b."⟩ = ⟨"out/..a.b_uncertain."⟩ ∧
      Path.IsBeside ⟨"out/./..a.b."⟩ ⟨"out/..a.b_uncertain."⟩ ∧
      Path.fileName? ⟨"out/./..a.b."⟩ = Path.fileName? ⟨"out//..a.b./"⟩ := by
  have named : Path.fileName? ⟨"out/./..a.b."⟩ = some "..a.b." := by decide +kernel
  have also : Path.fileName? ⟨"out//..a.b./"⟩ = some "..a.b." := by decide +kernel
  have twin : Path.uncertainTwin ⟨"out/./..a.b."⟩ = ⟨"out/..a.b_uncertain."⟩ := by decide +kernel
  have same : (Path.uncertainTwin ⟨"out/./..a.b."⟩).Same (Path.uncertainTwin ⟨"out//..a.b./"⟩) := by
    decide +kernel
  obtain ⟨beside, injective, -⟩ :=
    isBeside_uncertainTwin (named ▸ rfl : (Path.fileName? ⟨"out/./..a.b."⟩).isSome = true)
      (also ▸ rfl : (Path.fileName? ⟨"out//..a.b./"⟩).isSome = true)
  exact ⟨named, also, twin, twin ▸ beside, (injective same).2⟩

end Path

end RaggedTrajectory
