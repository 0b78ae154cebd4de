import RaggedTrajectory.Proofs.Toml.Quoted
import RaggedTrajectory.Toml.Document

/-!
# Documents are read back

A document that is written line by line, each of them a bare key with its value, is read back as its
keys and values if no key is there twice. The value of a line may be written in any form that the
reader takes up to the line end.

* `denotes_renderText`, `denotes_boolean`: written values.
* `readLines_line`: one line is one step of the reader.
* `parse?_lines`: a document.
-/

namespace RaggedTrajectory.Toml

/-! ## Values -/

/-- What a value is written as, before a line end. -/
structure Denotes (written : List Char) (value : Value) : Prop where
  solid : ∀ rest, skipBlanks (written ++ rest) = written ++ rest
  read : ∀ fuel rest, readValue (fuel + 1) maxDepth (written ++ '\n' :: rest) =
    some (value, '\n' :: rest)

/-- A written text starts with a quote. -/
theorem exists_renderText_cons (text : List Char) :
    ∃ c rest, renderText text = c :: rest ∧ (c = '"' ∨ c = '\'') := by
  unfold renderText
  split
  · exact ⟨_, _, rfl, .inl rfl⟩
  · exact ⟨_, _, rfl, .inr rfl⟩
  · exact ⟨_, _, rfl, .inl rfl⟩
  · exact ⟨_, _, rfl, .inr rfl⟩

theorem denotes_renderText (text : List Char) :
    Denotes (renderText text) (.text (String.ofList text)) := by
  obtain ⟨c, more, whole, quote⟩ := exists_renderText_cons text
  refine ⟨fun rest => ?_, fun fuel rest => ?_⟩
  · have busy : isBlank c = false := by rcases quote with rfl | rfl <;> rfl
    rw [whole, List.cons_append, skipBlanks, List.dropWhile_cons_of_neg (by simp [busy])]
  · have content : readText (renderText text ++ '\n' :: rest) = some (text, '\n' :: rest) :=
      readText_renderText text (by simp) (by simp)
    rw [whole, List.cons_append] at content ⊢
    rw [readValue, if_pos (by simpa using quote), content]
    rfl

/-- The written form of a truth value. -/
theorem denotes_boolean (value : Bool) :
    Denotes (if value then "true" else "false").toList (.boolean value) := by
  cases value <;> exact ⟨fun _ => rfl, fun _ _ => rfl⟩

/-! ## Lines -/

/-- A key with its value and what this is written as. -/
structure Line where
  key : List Char
  written : List Char
  value : Value

namespace Line

/-- The line in a document. -/
def text (line : Line) : List Char := line.key ++ [' ', '=', ' '] ++ line.written ++ ['\n']

/-- What the line adds to a table. -/
def entry (line : Line) : String × Value := (String.ofList line.key, line.value)

structure IsSound (line : Line) : Prop where
  named : line.key ≠ []
  bare : ∀ c ∈ line.key, isBare c = true
  denotes : Denotes line.written line.value

end Line

/-- A bare character has no meaning of its own. -/
theorem ne_of_isBare {c d : Char} (bare : isBare c = true) (special : isBare d = false) :
    c ≠ d := by
  rintro rfl
  rw [bare] at special
  cases special

theorem isBlank_of_isBare {c : Char} (bare : isBare c = true) : isBlank c = false := by
  have space := ne_of_isBare bare (show isBare ' ' = false by decide)
  have tab := ne_of_isBare bare (show isBare '\t' = false by decide)
  simp [isBlank, space, tab]

section Line

variable {line : Line} (sound : line.IsSound)

include sound

theorem exists_key_cons : ∃ c more, line.key = c :: more ∧ isBare c = true := by
  obtain ⟨c, more, key⟩ := List.exists_cons_of_ne_nil sound.named
  exact ⟨c, more, key, sound.bare c (key ▸ List.mem_cons_self)⟩

/-- A bare key ends before the white space. -/
theorem readKey_append (rest : List Char) :
    readKey maxDepth (line.key ++ ' ' :: '=' :: rest) =
      some ([], String.ofList line.key, '=' :: rest) := by
  obtain ⟨c, more, key, bare⟩ := exists_key_cons sound
  have start : skipBlanks (line.key ++ ' ' :: '=' :: rest) = line.key ++ ' ' :: '=' :: rest := by
    rw [key, List.cons_append, skipBlanks,
      List.dropWhile_cons_of_neg (by simp [isBlank_of_isBare bare])]
  have name : (line.key ++ ' ' :: '=' :: rest).takeWhile isBare = line.key := by
    rw [List.takeWhile_append_of_pos sound.bare, List.takeWhile_cons_of_neg (by decide),
      List.append_nil]
  have part : readKeyPart (line.key ++ ' ' :: '=' :: rest) =
      some (String.ofList line.key, ' ' :: '=' :: rest) := by
    unfold readKeyPart
    split
    · next same =>
        rw [key] at same
        exact absurd (List.cons.inj same).1 (ne_of_isBare bare (by decide))
    · next same =>
        rw [key] at same
        exact absurd (List.cons.inj same).1 (ne_of_isBare bare (by decide))
    · rw [name]
      dsimp only
      rw [if_neg sound.named, List.drop_left]
  rw [maxDepth, readKey, start, part]
  rfl

/-- A line is read up to its end. -/
theorem readPair_append (rest : List Char) :
    readPair (line.text ++ rest) = some ([], String.ofList line.key, line.value, rest) := by
  have whole : line.text ++ rest =
      line.key ++ ' ' :: '=' :: (' ' :: (line.written ++ '\n' :: rest)) := by
    simp [Line.text]
  -- A value that is not nested needs one step, and there is more text than that.
  obtain ⟨fuel, enough⟩ : ∃ fuel, 2 * (line.text ++ rest).length = fuel + 1 := by
    refine ⟨2 * (line.text ++ rest).length - 1, ?_⟩
    rw [whole, List.length_append, List.length_cons]
    omega
  have value : skipBlanks (' ' :: (line.written ++ '\n' :: rest)) = line.written ++ '\n' :: rest :=
    sound.denotes.solid _
  rw [readPair, enough, whole, readKey_append sound]
  simp only [Option.bind_eq_bind, Option.bind_some, value, sound.denotes.read]
  rfl

/-- A line for a new key is one step of the reader. -/
theorem readLines_line (fuel : Nat) {root : Members}
    (new : root.lookup (String.ofList line.key) = none) (rest : List Char) :
    readLines (fuel + 1) root [] (line.text ++ rest) =
      readLines fuel (root ++ [line.entry]) [] rest := by
  obtain ⟨c, more, key, bare⟩ := exists_key_cons sound
  have pair := readPair_append sound rest
  have whole : ∃ others, line.text ++ rest = c :: others := by
    rw [Line.text, key]
    exact ⟨_, rfl⟩
  obtain ⟨others, whole⟩ := whole
  have start : skipBlanks (c :: others) = c :: others :=
    List.dropWhile_cons_of_neg (by simp [isBlank_of_isBare bare])
  -- The first character starts neither a comment nor a header, nor is the line empty.
  have comment := ne_of_isBare bare (show isBare '#' = false by decide)
  have feed := ne_of_isBare bare (show isBare '\n' = false by decide)
  have carriage := ne_of_isBare bare (show isBare '\r' = false by decide)
  have header := ne_of_isBare bare (show isBare '[' = false by decide)
  rw [whole] at pair ⊢
  rw [readLines, start]
  simp only [comment, feed, carriage, header, decide_false, Bool.or_self, Bool.false_eq_true,
    if_false, pair, Members.updateAt, Members.insertDotted_nil line.value new]
  rfl

end Line

/-! ## Documents -/

/-- Lines with different keys are read back, after whatever has been read. -/
theorem readLines_lines {lines : List Line} (sound : ∀ line ∈ lines, line.IsSound) {root : Members}
    (distinct : (root ++ lines.map Line.entry).map Prod.fst |>.Nodup) {fuel : Nat}
    (enough : lines.length < fuel) :
    readLines fuel root [] (lines.flatMap Line.text) = some (root ++ lines.map Line.entry) := by
  induction lines generalizing root fuel with
  | nil =>
    obtain ⟨fuel, rfl⟩ := Nat.exists_eq_add_one_of_ne_zero (Nat.ne_zero_of_lt enough)
    rw [List.map_nil, List.append_nil]
    rfl
  | cons line lines ih =>
    obtain ⟨fuel, rfl⟩ := Nat.exists_eq_add_one_of_ne_zero (Nat.ne_zero_of_lt enough)
    obtain ⟨own, others⟩ := List.forall_mem_cons.1 sound
    -- What has been read has other keys.
    have new : root.lookup (String.ofList line.key) = none := by
      rw [List.lookup_eq_none_iff]
      rintro ⟨key, value⟩ mem
      rw [List.map_append, List.nodup_append] at distinct
      have other := distinct.2.2 key (List.mem_map_of_mem (f := Prod.fst) mem) line.entry.1
        (by simp)
      simpa [Line.entry] using other.symm
    have added : root ++ (line :: lines).map Line.entry =
        (root ++ [line.entry]) ++ lines.map Line.entry := by simp
    rw [added] at distinct ⊢
    rw [List.flatMap_cons, readLines_line own fuel new,
      ih others distinct (Nat.lt_of_succ_lt_succ enough)]

/-- A document of lines with different keys has these keys with their values. -/
theorem parse?_lines {lines : List Line} (sound : ∀ line ∈ lines, line.IsSound)
    (distinct : (lines.map Line.entry).map Prod.fst |>.Nodup) :
    parse? (lines.flatMap Line.text) = some (lines.map Line.entry) := by
  have unmarked : (lines.flatMap Line.text).head? ≠ some '\ufeff' := by
    cases lines with
    | nil => simp
    | cons line lines =>
      obtain ⟨c, more, key, bare⟩ := exists_key_cons (sound line List.mem_cons_self)
      have other := ne_of_isBare bare (show isBare '\ufeff' = false by decide)
      simpa [Line.text, key] using other
  have long : lines.length ≤ (lines.flatMap Line.text).length := by
    clear sound distinct unmarked
    induction lines with
    | nil => exact Nat.le_refl 0
    | cons line lines ih =>
      simp only [List.flatMap_cons, List.length_append, List.length_cons, Line.text]
      omega
  rw [parse?, if_neg unmarked]
  exact readLines_lines sound distinct (Nat.lt_succ_of_le long)

end RaggedTrajectory.Toml
