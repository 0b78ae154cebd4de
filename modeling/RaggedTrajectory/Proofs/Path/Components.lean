import Mathlib.Data.List.TakeWhile
import RaggedTrajectory.Path

/-!
# What a path is made of

Many texts stand for one path: slashes can be doubled, idle parts can stand between the others, and
all of them can follow the last name. What counts are the components, which are where a path starts
and the parts that name something. A name behind a path is one component more, and the file name is
the last component.

* `Path.componentsOf_child`: a name behind a text.
* `Path.lastName?_eq`: the file name by the components.
* `Path.componentsOf_of_lastName?`: the directory has the components before the file name.
* `Path.withoutLast_child`: the directory stays when another name is put behind it.
-/

namespace RaggedTrajectory

namespace Path

/-! ## Parts between slashes -/

theorem segments_append_slash (first second : List Char) :
    segments (first ++ '/' :: second) = segments first ++ segments second := by
  induction first with
  | nil => simp [segments]
  | cons c first ih =>
    by_cases slash : c = '/'
    · simp [segments, slash, ih]
    · rw [List.cons_append, segments, if_neg slash, ih, segments, if_neg slash]
      cases parts : segments first with
      | nil => exact absurd parts (segments_ne_nil first)
      | cons part parts => rfl

/-- A text without slashes is one part. -/
theorem segments_of_not_mem {text : List Char} (single : '/' ∉ text) : segments text = [text] := by
  induction text with
  | nil => rfl
  | cons c text ih =>
    obtain ⟨other, rest⟩ := not_or.1 (mt List.mem_cons.2 single)
    rw [segments, if_neg (Ne.symm other), ih rest]

theorem not_mem_of_mem_segments {text part : List Char} (mem : part ∈ segments text) :
    '/' ∉ part := by
  induction text generalizing part with
  | nil =>
    obtain rfl := List.mem_singleton.1 mem
    exact List.not_mem_nil
  | cons c text ih =>
    rw [segments] at mem
    split at mem
    · rcases List.mem_cons.1 mem with rfl | mem
      · exact List.not_mem_nil
      · exact ih mem
    · next other =>
      cases parts : segments text with
      | nil => exact absurd parts (segments_ne_nil text)
      | cons first others =>
        rw [parts] at mem ih
        -- The first part is longer by a character that is no slash.
        rcases List.mem_cons.1 mem with rfl | mem
        · intro slash
          rcases List.mem_cons.1 slash with same | slash
          · exact other same.symm
          · exact ih List.mem_cons_self slash
        · exact ih (List.mem_cons_of_mem _ mem)

theorem joined_cons (part : List Char) {parts : List (List Char)} (more : parts ≠ []) :
    joined (part :: parts) = part ++ '/' :: joined parts := by
  obtain ⟨next, rest, rfl⟩ := List.exists_cons_of_ne_nil more
  rfl

theorem joined_append {first second : List (List Char)} (some : first ≠ []) (more : second ≠ []) :
    joined (first ++ second) = joined first ++ '/' :: joined second := by
  induction first with
  | nil => exact absurd rfl some
  | cons part first ih =>
    by_cases none : first = []
    · subst none
      exact joined_cons part more
    · rw [List.cons_append, joined_cons part (by simp [none]), ih none, joined_cons part none,
        List.append_assoc, List.cons_append]

/-- Parts are found again between the slashes. -/
theorem segments_joined {parts : List (List Char)} (some : parts ≠ [])
    (single : ∀ part ∈ parts, '/' ∉ part) : segments (joined parts) = parts := by
  induction parts with
  | nil => exact absurd rfl some
  | cons part parts ih =>
    obtain ⟨own, others⟩ := List.forall_mem_cons.1 single
    by_cases last : parts = []
    · subst last
      exact segments_of_not_mem own
    · rw [joined_cons part last, segments_append_slash, ih last others, segments_of_not_mem own]
      rfl

/-! ## Where a path starts -/

/-- A text that starts neither at the root nor at the working directory by name. -/
def IsBare (text : List Char) : Prop :=
  (∀ rest, text ≠ '/' :: rest) ∧ text ≠ ['.'] ∧ ∀ rest, text ≠ '.' :: '/' :: rest

theorem splitStart_of_isBare {text : List Char} (bare : IsBare text) :
    splitStart text = ([], text) :=
  splitStart.eq_4 text bare.1 bare.2.1 bare.2.2

/-- The three kinds of texts. -/
theorem splitStart_cases (text : List Char) :
    (∃ rest, text = '/' :: rest) ∨ (text = ['.'] ∨ ∃ rest, text = '.' :: '/' :: rest) ∨
      IsBare text := by
  by_cases root : ∃ rest, text = '/' :: rest
  · exact .inl root
  · by_cases here : text = ['.'] ∨ ∃ rest, text = '.' :: '/' :: rest
    · exact .inr (.inl here)
    · obtain ⟨alone, followed⟩ := not_or.1 here
      exact .inr (.inr ⟨not_exists.1 root, alone, not_exists.1 followed⟩)

/-- The start and the rest are the text. -/
theorem splitStart_append (text : List Char) :
    (splitStart text).1 ++ (splitStart text).2 = text := by
  rcases splitStart_cases text with ⟨rest, rfl⟩ | (rfl | ⟨rest, rfl⟩) | bare
  · rfl
  · rfl
  · rfl
  · rw [splitStart_of_isBare bare]
    rfl

/-- The start alone has no rest. -/
theorem splitStart_start (text : List Char) :
    splitStart (splitStart text).1 = ((splitStart text).1, []) := by
  rcases splitStart_cases text with ⟨rest, rfl⟩ | (rfl | ⟨rest, rfl⟩) | bare
  · rfl
  · rfl
  · rfl
  · rw [splitStart_of_isBare bare]
    rfl

/-- A bare text stays bare when a slash follows it. -/
theorem isBare_append_slash {text : List Char} (bare : IsBare text) (some : text ≠ [])
    (more : List Char) : IsBare (text ++ '/' :: more) := by
  obtain ⟨c, rest, rfl⟩ := List.exists_cons_of_ne_nil some
  obtain ⟨root, alone, followed⟩ := bare
  refine ⟨fun other same => ?_, fun same => ?_, fun other same => ?_⟩
  · exact root rest (by rw [(List.cons.inj same).1])
  · exact List.append_ne_nil_of_right_ne_nil rest (List.cons_ne_nil '/' more)
      (List.cons.inj same).2
  · obtain ⟨rfl, behind⟩ := List.cons.inj same
    cases rest with
    | nil => exact alone rfl
    | cons d rest => exact followed rest (by rw [(List.cons.inj behind).1])

/-- What stands behind a slash does not change where a text starts. -/
theorem splitStart_append_slash {text : List Char} (some : text ≠ []) (more : List Char) :
    splitStart (text ++ '/' :: more) =
      ((splitStart text).1, (splitStart text).2 ++ '/' :: more) := by
  rcases splitStart_cases text with ⟨rest, rfl⟩ | (rfl | ⟨rest, rfl⟩) | bare
  · rfl
  · rfl
  · rfl
  · rw [splitStart_of_isBare bare, splitStart_of_isBare (isBare_append_slash bare some more)]

/-! ## Components -/

/-- Whether a part names something. -/
def isNamed (part : List Char) : Bool := !isIdle part

/-- Where a text starts, and its parts that name something. -/
def componentsOf (text : List Char) : List Char × List (List Char) :=
  ((splitStart text).1, (segments (splitStart text).2).filter isNamed)

/-- Where a path starts, and its parts that name something. -/
def components (path : Path) : List Char × List (List Char) := componentsOf path.text.toList

/-- Whether two paths stand for the same path. -/
def Same (path other : Path) : Prop := path.components = other.components

instance (path other : Path) : Decidable (path.Same other) :=
  inferInstanceAs (Decidable (path.components = other.components))

/-- Whether a text can be a file name. -/
structure IsName (name : List Char) : Prop where
  single : '/' ∉ name
  named : isNamed name = true
  notAbove : name ≠ ['.', '.']

theorem isNamed_iff {part : List Char} : isNamed part = true ↔ part ≠ [] ∧ part ≠ ['.'] := by
  simp [isNamed, isIdle]

/-- A text behind a slash adds its parts. -/
theorem componentsOf_append_slash {text : List Char} (some : text ≠ []) (more : List Char) :
    componentsOf (text ++ '/' :: more) =
      ((componentsOf text).1, (componentsOf text).2 ++ (segments more).filter isNamed) := by
  rw [componentsOf, splitStart_append_slash some, segments_append_slash, List.filter_append]
  rfl

/-- A name is a path with itself as the only component. -/
theorem splitStart_of_isName {name : List Char} (proper : IsName name) :
    splitStart name = ([], name) := by
  apply splitStart_of_isBare
  refine ⟨fun rest same => ?_, (isNamed_iff.1 proper.named).2, fun rest same => ?_⟩
  · exact proper.single (same ▸ List.mem_cons_self)
  · exact proper.single (same ▸ List.mem_cons_of_mem _ List.mem_cons_self)

theorem filter_segments_of_isName {name : List Char} (proper : IsName name) :
    (segments name).filter isNamed = [name] := by
  rw [segments_of_not_mem proper.single, List.filter_cons_of_pos proper.named]
  rfl

/-- A name behind a text is one component more. -/
theorem componentsOf_child (directory : List Char) {name : List Char} (proper : IsName name) :
    componentsOf (child directory name) =
      ((componentsOf directory).1, (componentsOf directory).2 ++ [name]) := by
  have own := filter_segments_of_isName proper
  rcases List.eq_nil_or_concat directory with rfl | ⟨front, last, rfl⟩
  · -- The name stands alone.
    show componentsOf name = _
    rw [componentsOf, splitStart_of_isName proper, own]
    rfl
  · rw [List.concat_eq_append, child]
    by_cases slash : last = '/'
    · -- The slash is there already, and nothing is behind it.
      subst slash
      rw [if_pos (.inr (by simp)), List.append_assoc, List.singleton_append]
      by_cases root : front = []
      · subst root
        show (['/'], (segments name).filter isNamed) = _
        rw [own]
        rfl
      · rw [componentsOf_append_slash root, componentsOf_append_slash root, own,
          show (segments []).filter isNamed = [] from rfl, List.append_nil]
    · rw [if_neg (by simp [slash]), componentsOf_append_slash (by simp), own]

/-! ## The last component -/

theorem head?_dropWhile_isIdle (parts : List (List Char)) :
    (parts.dropWhile isIdle).head? = parts.find? isNamed := by
  induction parts with
  | nil => rfl
  | cons part parts ih =>
    by_cases idle : isIdle part = true
    · rw [List.dropWhile_cons_of_pos idle, ih, List.find?_cons_of_neg (by simp [isNamed, idle])]
    · rw [List.dropWhile_cons_of_neg idle, List.find?_cons_of_pos (by simp [isNamed, idle])]
      rfl

/-- The file name is the last component, unless that is the part for the directory above. -/
theorem lastName?_eq (text : List Char) :
    lastName? text = (componentsOf text).2.getLast?.filter (· ≠ ['.', '.']) := by
  rw [lastName?, namedReversed, componentsOf, head?_dropWhile_isIdle, List.getLast?_filter]

theorem lastName?_eq_some {text name : List Char} (found : lastName? text = some name) :
    name ∈ (componentsOf text).2 ∧ IsName name := by
  rw [lastName?_eq] at found
  obtain ⟨last, notAbove⟩ := Option.filter_eq_some_iff.1 found
  have mem := List.mem_of_getLast? last
  obtain ⟨inside, named⟩ := List.mem_filter.1 mem
  exact ⟨mem, not_mem_of_mem_segments inside, named, by simpa using notAbove⟩

/-- The file name of a name behind a text. -/
theorem lastName?_child (directory : List Char) {name : List Char} (proper : IsName name) :
    lastName? (child directory name) = some name := by
  rw [lastName?_eq, componentsOf_child directory proper, List.getLast?_concat]
  simp [Option.filter, proper.notAbove]

/-! ## Directories -/

theorem namedReversed_of_isName {name : List Char} (proper : IsName name) :
    namedReversed name = [name] := by
  have busy : ¬isIdle name = true := by simpa [isNamed] using proper.named
  rw [namedReversed, segments_of_not_mem proper.single, List.reverse_singleton,
    List.dropWhile_cons_of_neg busy]

theorem namedReversed_append_slash (front : List Char) {name : List Char} (proper : IsName name) :
    namedReversed (front ++ '/' :: name) = name :: (segments front).reverse := by
  have busy : ¬isIdle name = true := by simpa [isNamed] using proper.named
  rw [namedReversed, segments_append_slash, segments_of_not_mem proper.single,
    List.reverse_append, List.reverse_singleton, List.singleton_append,
    List.dropWhile_cons_of_neg busy]

/-- A text with given parts, the last of which names something. -/
structure IsTrimmed (text start : List Char) (parts : List (List Char)) : Prop where
  split : splitStart text = (start, joined parts)
  single : ∀ part ∈ parts, '/' ∉ part
  last : ∀ part, parts.getLast? = some part → isNamed part = true

section Trimmed

variable {text start : List Char} {parts : List (List Char)} (trimmed : IsTrimmed text start parts)

include trimmed

theorem append_of_isTrimmed : start ++ joined parts = text := by
  have whole := splitStart_append text
  rw [trimmed.split] at whole
  exact whole

theorem filter_segments_of_isTrimmed :
    (segments (joined parts)).filter isNamed = parts.filter isNamed := by
  by_cases none : parts = []
  · subst none
    rfl
  · rw [segments_joined none trimmed.single]

theorem componentsOf_of_isTrimmed : componentsOf text = (start, parts.filter isNamed) := by
  rw [componentsOf, trimmed.split, filter_segments_of_isTrimmed trimmed]

/-- A trimmed text with parts does not end in a slash. -/
theorem getLast?_of_isTrimmed (some : parts ≠ []) :
    text ≠ [] ∧ text.getLast? ≠ Option.some '/' := by
  have found := segments_joined some trimmed.single
  -- The part behind a slash at the end would be empty, and so name nothing.
  have filled : ∀ front, segments (joined parts) ≠ front ++ [[]] := by
    intro front same
    have last := trimmed.last []
    rw [← found, same, List.getLast?_concat] at last
    exact absurd (last rfl) Bool.false_ne_true
  have whole := append_of_isTrimmed trimmed
  have split := trimmed.split
  refine ⟨?_, fun slash => ?_⟩
  · rintro rfl
    rw [(List.append_eq_nil_iff.1 whole).2] at filled
    exact filled [] rfl
  · obtain ⟨front, rfl⟩ := List.getLast?_eq_some_iff.1 slash
    by_cases root : front = []
    · subst root
      obtain ⟨-, rest⟩ := Prod.mk.inj split
      rw [← rest] at filled
      exact filled [] rfl
    · rw [splitStart_append_slash root] at split
      obtain ⟨-, rest⟩ := Prod.mk.inj split
      rw [← rest, segments_append_slash] at filled
      exact filled _ rfl

/-- The directory of a name behind a trimmed text is this text. -/
theorem withoutLast_child_of_isTrimmed {name : List Char} (proper : IsName name) :
    withoutLast (child text name) = text := by
  have split := trimmed.split
  by_cases none : parts = []
  · -- The text is only a start, if it is anything.
    subst none
    rcases splitStart_cases text with ⟨rest, rfl⟩ | (rfl | ⟨rest, rfl⟩) | bare
    · obtain ⟨-, rest⟩ := Prod.mk.inj split
      subst rest
      show ['/'] ++ joined (((namedReversed name).drop 1).dropWhile isIdle).reverse = ['/']
      rw [namedReversed_of_isName proper]
      rfl
    · show ['.'] ++ joined (((namedReversed ([] ++ '/' :: name)).drop 1).dropWhile isIdle).reverse =
        ['.']
      rw [namedReversed_append_slash [] proper]
      rfl
    · obtain ⟨-, rest⟩ := Prod.mk.inj split
      cases rest
    · rw [splitStart_of_isBare bare] at split
      obtain ⟨-, rfl⟩ := Prod.mk.inj split
      show withoutLast name = []
      rw [withoutLast, splitStart_of_isName proper]
      dsimp only
      rw [namedReversed_of_isName proper]
      rfl
  · obtain ⟨some, noSlash⟩ := getLast?_of_isTrimmed trimmed none
    -- Before the name nothing is idle at the end, so nothing but the name is taken away.
    have kept : parts.reverse.dropWhile isIdle = parts.reverse := by
      obtain ⟨last, front, reversed⟩ :=
        List.exists_cons_of_ne_nil (mt List.reverse_eq_nil_iff.1 none)
      have named := trimmed.last last (by rw [← List.head?_reverse, reversed]; rfl)
      rw [reversed, List.dropWhile_cons_of_neg (by simpa [isNamed] using named)]
    rw [child, if_neg (not_or.2 ⟨some, noSlash⟩), withoutLast, splitStart_append_slash some, split]
    dsimp only
    rw [namedReversed_append_slash _ proper, segments_joined none trimmed.single, List.drop_one,
      List.tail_cons, kept, List.reverse_reverse]
    exact append_of_isTrimmed trimmed

end Trimmed

/-- A text that ends before one of its parts starts where the whole text does. -/
theorem splitStart_append_joined {text : List Char} {front back : List (List Char)}
    (split : segments (splitStart text).2 = front ++ back) (some : back ≠ []) :
    splitStart ((splitStart text).1 ++ joined front) = ((splitStart text).1, joined front) := by
  by_cases none : front = []
  · subst none
    rw [joined, List.append_nil, splitStart_start]
  · have whole := splitStart_append text
    have rest := joined_segments (splitStart text).2
    rw [split, joined_append none some] at rest
    rw [← rest, ← List.append_assoc] at whole
    by_cases bare : (splitStart text).1 ++ joined front = []
    · obtain ⟨start, empty⟩ := List.append_eq_nil_iff.1 bare
      rw [start, empty]
      rfl
    · -- The rest of the text stands behind a slash, so it does not matter for the start.
      have same := splitStart_append_slash bare (joined back)
      rw [whole] at same
      have start := (Prod.mk.inj same).1
      have parts := splitStart_append ((splitStart text).1 ++ joined front)
      rw [← start] at parts
      exact Prod.ext start.symm (List.append_cancel_left parts)

/-- The directory of a file is trimmed, and has the components before the file name. -/
theorem isTrimmed_withoutLast {text name : List Char} (found : lastName? text = some name) :
    ∃ parts, IsTrimmed (withoutLast text) (splitStart text).1 parts ∧
      componentsOf text = ((splitStart text).1, parts.filter isNamed ++ [name]) := by
  -- From the end on there are idle parts, the file name, idle parts again, and the directory.
  obtain ⟨others, named⟩ : ∃ others, namedReversed (splitStart text).2 = name :: others := by
    obtain ⟨head, -⟩ := Option.filter_eq_some_iff.1 found
    exact List.head?_eq_some_iff.1 head
  have busy := (lastName?_eq_some found).2.named
  have idle : ∀ parts : List (List Char), (parts.takeWhile isIdle).filter isNamed = [] := by
    intro parts
    rw [List.filter_eq_nil_iff]
    intro part mem
    simp [isNamed, List.mem_takeWhile_imp mem]
  obtain ⟨tail, filled, split⟩ : ∃ tail, tail.filter isNamed = [name] ∧
      segments (splitStart text).2 = (others.dropWhile isIdle).reverse ++ tail := by
    refine ⟨(others.takeWhile isIdle).reverse ++ name ::
      ((segments (splitStart text).2).reverse.takeWhile isIdle).reverse, ?_, ?_⟩
    · rw [List.filter_append, List.filter_reverse, idle, List.filter_cons_of_pos busy,
        List.filter_reverse, idle]
      rfl
    · apply List.reverse_inj.1
      have whole := List.takeWhile_append_dropWhile
        (p := isIdle) (l := (segments (splitStart text).2).reverse)
      rw [← namedReversed, named] at whole
      simp only [List.reverse_append, List.reverse_cons, List.reverse_reverse, List.append_assoc,
        List.cons_append, List.takeWhile_append_dropWhile]
      exact whole.symm
  have single : ∀ part ∈ (others.dropWhile isIdle).reverse, '/' ∉ part := by
    intro part mem
    have inside : part ∈ segments (splitStart text).2 := by
      rw [split]
      exact List.mem_append_left _ mem
    exact not_mem_of_mem_segments inside
  have shape : withoutLast text =
      (splitStart text).1 ++ joined (others.dropWhile isIdle).reverse := by
    rw [withoutLast]
    dsimp only
    rw [named]
    rfl
  refine ⟨(others.dropWhile isIdle).reverse, ⟨?_, single, ?_⟩, ?_⟩
  · rw [shape]
    exact splitStart_append_joined split fun none => by simp [none] at filled
  · intro part last
    rw [List.getLast?_reverse, head?_dropWhile_isIdle] at last
    exact List.find?_some last
  · rw [componentsOf, split, List.filter_append, filled]

theorem componentsOf_of_lastName? {text name : List Char} (found : lastName? text = some name) :
    componentsOf text =
      ((componentsOf (withoutLast text)).1, (componentsOf (withoutLast text)).2 ++ [name]) := by
  obtain ⟨parts, trimmed, whole⟩ := isTrimmed_withoutLast found
  rw [whole, componentsOf_of_isTrimmed trimmed]

theorem withoutLast_child {text last name : List Char} (found : lastName? text = some last)
    (proper : IsName name) : withoutLast (child (withoutLast text) name) = withoutLast text := by
  obtain ⟨parts, trimmed, -⟩ := isTrimmed_withoutLast found
  exact withoutLast_child_of_isTrimmed trimmed proper

end Path

end RaggedTrajectory
