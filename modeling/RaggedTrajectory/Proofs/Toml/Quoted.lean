import RaggedTrajectory.Toml.Quoted

/-!
# Quoted text is read back

A text is read back from whatever form it is written in. Between single quotes this is because the
form is only taken for a text that needs no escapes. Between double quotes every character is
written alone or as one escape. Quotes inside of three quotes are read back because there are never
three of them in a row before the closing ones, and up to two right before these belong to the text.

* `writes_escaped`: how a character is written.
* `readBasic_escapeBasic`, `readLiteral_append`: the content of one line.
* `escapeLines_cons`: how a character is written among several lines.
* `escapeLines_cases`, `hasTriple_cases`: quotes at the start of a content of several lines.
* `readBasicLines_escapeLines`, `readLiteralLines_append`: the content of several lines.
* `readText_renderText`: a text in its written form.
-/

namespace RaggedTrajectory.Toml

/-! ## Characters -/

/-- The written form of a character that is neither a quote nor a line end: itself, or an escape. An
escape does not look like a line that is continued. -/
inductive Writes : List Char → Char → Prop
  | plain {c : Char} (plain : isPlain c = true) (quote : c ≠ '"') (backslash : c ≠ '\\') :
      Writes [c] c
  | escape {letters : List Char} {c : Char}
      (read : ∀ rest, readEscape (letters ++ rest) = some (c, rest))
      (solid : ∀ rest, afterLineEnd? ((letters ++ rest).dropWhile isBlank) = none) :
      Writes ('\\' :: letters) c

/-- The digits of an escape stand for its code point. -/
theorem filterMap_codePointDigits {n : Nat} (small : n < 128) :
    (codePointDigits n).filterMap hexValue? = [0, 0, n / 16, n % 16] := by
  revert n
  decide +kernel

theorem readCodePoint_codePointDigits {c : Char} (small : c.toNat < 128) (rest : List Char) :
    readCodePoint 4 (codePointDigits c.toNat ++ rest) = some (c, rest) := by
  have four : (codePointDigits c.toNat).length = 4 := rfl
  have value : (((0 * 16 + 0) * 16 + 0) * 16 + c.toNat / 16) * 16 + c.toNat % 16 = c.toNat := by
    omega
  rw [readCodePoint, List.take_left' four, List.drop_left' four, filterMap_codePointDigits small]
  simp only [List.length_cons, List.length_nil, if_true, List.foldl_cons, List.foldl_nil, value,
    ofCodePoint?]
  rw [if_pos (show c.toNat.isValidChar from c.valid), Char.ofNat_toNat]
  rfl

theorem toNat_lt_of_not_isPlain {c : Char} (control : ¬isPlain c = true) : c.toNat < 128 := by
  rw [isPlain, Bool.or_eq_true, Bool.and_eq_true, not_or, decide_eq_true_eq, decide_eq_true_eq,
    decide_eq_true_eq] at control
  by_cases blank : ' ' ≤ c
  · have delete : c = '\x7f' := Decidable.of_not_not fun other => control.2 ⟨blank, other⟩
    rw [delete]
    decide
  · exact Nat.lt_trans (Nat.not_le.1 blank) (by decide)

/-- An escape of one letter. -/
theorem writes_letter {letter c : Char} (stands : simpleEscape? letter = some c)
    (busy : isBlank letter = false) (notFeed : letter ≠ '\n') (notReturn : letter ≠ '\r') :
    Writes ['\\', letter] c := by
  refine .escape (fun rest => ?_) fun rest => ?_
  · simp [readEscape, stands]
  · simp [busy, afterLineEnd?, notFeed, notReturn]

/-- A character other than quotes and line ends. -/
theorem writes_escaped {c : Char} (quote : c ≠ '"') (lineEnd : c ≠ '\n') :
    Writes (escaped c) c := by
  unfold escaped
  -- The first five cases are escapes of one letter.
  iterate 5
    split
    · next same =>
        subst same
        exact writes_letter rfl rfl (by decide) (by decide)
  split
  · next backslash plain => exact .plain plain quote backslash
  · next control =>
      refine .escape (fun rest => ?_) fun rest => ?_
      · exact readCodePoint_codePointDigits (toNat_lt_of_not_isPlain control) rest
      · rfl

section Writes

variable {written : List Char} {c : Char} (writes : Writes written c)

include writes

/-- A written form starts with a character of its own: no quote, and no part of a line end. -/
theorem exists_cons_of_writes :
    ∃ d more, written = d :: more ∧ d ≠ '"' ∧ d ≠ '\n' ∧ d ≠ '\r' := by
  cases writes with
  | plain plain quote backslash =>
    refine ⟨c, [], rfl, quote, ?_, ?_⟩
    · rintro rfl
      exact absurd plain (by decide)
    · rintro rfl
      exact absurd plain (by decide)
  | escape read solid => exact ⟨'\\', _, rfl, by decide, by decide, by decide⟩

/-- One step of the reader of a line takes one character, in whatever form it is written. -/
theorem readBasic_writes (fuel : Nat) (rest : List Char) :
    readBasic (fuel + 1) (written ++ rest) = (readBasic fuel rest).map (push c) := by
  cases writes with
  | plain plain quote backslash => simp [readBasic, plain, quote, backslash]
  | escape read solid => simp [readBasic, read]

/-- So does one step of the reader of several lines. -/
theorem readBasicLines_writes (fuel : Nat) (rest : List Char) :
    readBasicLines (fuel + 1) (written ++ rest) = (readBasicLines fuel rest).map (push c) := by
  cases writes with
  | plain plain quote backslash => simp [readBasicLines, plain, quote, backslash]
  | escape read solid => simp [readBasicLines, read, solid]

end Writes

/-! ## One line -/

/-- Between double quotes every character has its written form. -/
theorem exists_escapeBasic_cons (c : Char) (text : List Char) :
    ∃ written, Writes written c ∧ escapeBasic (c :: text) = written ++ escapeBasic text := by
  refine ⟨_, ?_, List.flatMap_cons⟩
  split
  · next same =>
      subst same
      exact writes_letter rfl rfl (by decide) (by decide)
  · next quote =>
      split
      · next same =>
          subst same
          exact writes_letter rfl rfl (by decide) (by decide)
      · next lineEnd => exact writes_escaped quote lineEnd

/-- The content between double quotes is read back, up to the closing quote. A step of the reader
is a character of the text. -/
theorem readBasic_escapeBasic (text rest : List Char) {fuel : Nat} (enough : text.length < fuel) :
    readBasic fuel (escapeBasic text ++ '"' :: rest) = some (text, rest) := by
  induction text generalizing fuel with
  | nil =>
    obtain ⟨fuel, rfl⟩ := Nat.exists_eq_add_one_of_ne_zero (Nat.ne_zero_of_lt enough)
    simp [readBasic, escapeBasic]
  | cons c text ih =>
    obtain ⟨fuel, rfl⟩ := Nat.exists_eq_add_one_of_ne_zero (Nat.ne_zero_of_lt enough)
    obtain ⟨written, writes, whole⟩ := exists_escapeBasic_cons c text
    rw [whole, List.append_assoc, readBasic_writes writes, ih (Nat.lt_of_succ_lt_succ enough)]
    rfl

/-- An escaped text is not shorter than the text. -/
theorem length_le_escapeBasic (text : List Char) : text.length ≤ (escapeBasic text).length := by
  induction text with
  | nil => exact Nat.le_refl 0
  | cons c text ih =>
    obtain ⟨written, writes, whole⟩ := exists_escapeBasic_cons c text
    obtain ⟨d, more, rfl, -⟩ := exists_cons_of_writes writes
    rw [whole, List.length_append, List.length_cons, List.length_cons]
    omega

/-- The content between single quotes is the text. -/
theorem readLiteral_append {text : List Char} (plain : ∀ c ∈ text, isPlain c = true ∧ c ≠ '\'')
    (rest : List Char) : readLiteral (text ++ '\'' :: rest) = some (text, rest) := by
  induction text with
  | nil => simp [readLiteral]
  | cons c text ih =>
    obtain ⟨⟨plain, quote⟩, others⟩ := List.forall_mem_cons.1 plain
    rw [List.cons_append, readLiteral, if_neg quote, if_pos plain, ih others]
    rfl

/-! ## Several lines -/

/-- The number of quotes that a text starts with. -/
def leading (quote : Char) (text : List Char) : Nat := (text.takeWhile (· = quote)).length

@[simp]
theorem leading_cons_self (quote : Char) (text : List Char) :
    leading quote (quote :: text) = leading quote text + 1 := by
  simp [leading]

@[simp]
theorem leading_cons_ne {quote c : Char} (other : c ≠ quote) (text : List Char) :
    leading quote (c :: text) = 0 := by
  simp [leading, other]

/-- Less than three quotes do not close a text. -/
theorem readClosing?_eq_none {quote : Char} {text : List Char} (few : leading quote text < 3) :
    readClosing? quote text = none := by
  rw [leading] at few
  exact if_neg (by omega)

/-- Of up to five quotes the last three close the text. -/
theorem readClosing?_replicate {quote : Char} {rest : List Char} (other : rest.head? ≠ some quote)
    {count : Nat} (few : count ≤ 2) :
    readClosing? quote (List.replicate count quote ++ quote :: quote :: quote :: rest) =
      some (List.replicate count quote, rest) := by
  have row : List.replicate count quote ++ quote :: quote :: quote :: rest =
      List.replicate (count + 3) quote ++ rest := by
    rw [← List.replicate_append_replicate, List.append_assoc]
    rfl
  have stop : rest.takeWhile (· = quote) = [] := by
    cases rest with
    | nil => rfl
    | cons c rest => exact List.takeWhile_cons_of_neg (by simpa using other)
  have run : ((List.replicate (count + 3) quote ++ rest).takeWhile (· = quote)).length =
      count + 3 := by
    rw [List.takeWhile_append_of_pos (by simp), stop, List.append_nil, List.length_replicate]
  have most : min 5 (count + 3) = count + 3 := Nat.min_eq_right (by omega)
  rw [readClosing?, row, run, most, if_pos (Nat.le_add_left 3 count), Nat.add_sub_cancel,
    List.drop_left' List.length_replicate]

/-- Three quotes close a text at once. -/
theorem readClosing?_triple {quote : Char} {rest : List Char} (other : rest.head? ≠ some quote) :
    readClosing? quote (quote :: quote :: quote :: rest) = some ([], rest) :=
  readClosing?_replicate other (Nat.zero_le 2)

/-- A written form between three double quotes that does not start with a quote, and is one step of
the reader. -/
structure StandsInLines (written : List Char) (c : Char) : Prop where
  starts : ∃ d more, written = d :: more ∧ d ≠ '"'
  read : ∀ fuel rest,
    readBasicLines (fuel + 1) (written ++ rest) = (readBasicLines fuel rest).map (push c)

theorem standsInLines_of_writes {written : List Char} {c : Char} (writes : Writes written c) :
    StandsInLines written c := by
  obtain ⟨d, more, whole, quote, -⟩ := exists_cons_of_writes writes
  exact ⟨⟨d, more, whole, quote⟩, readBasicLines_writes writes⟩

/-- A line end stands for itself. -/
theorem standsInLines_lineEnd : StandsInLines ['\n'] '\n' :=
  ⟨⟨'\n', [], rfl, by decide⟩, fun fuel rest => by simp [readBasicLines]⟩

/-- Up to two quotes in a row stand for themselves. Any other character ends the row. -/
theorem escapeLines_cons (quotes : Nat) (c : Char) (text : List Char) :
    (c = '"' ∧ quotes < 2 ∧
      escapeLines quotes (c :: text) = '"' :: escapeLines (quotes + 1) text) ∨
    ∃ written, StandsInLines written c ∧
      escapeLines quotes (c :: text) = written ++ escapeLines 0 text := by
  rw [escapeLines]
  split
  · next quote =>
      subst quote
      split
      · next room => exact .inl ⟨rfl, room, rfl⟩
      · exact .inr ⟨_, standsInLines_of_writes (writes_letter rfl rfl (by decide) (by decide)), rfl⟩
  · next quote =>
      right
      split
      · next lineEnd =>
          subst lineEnd
          exact ⟨_, standsInLines_lineEnd, rfl⟩
      · next lineEnd => exact ⟨_, standsInLines_of_writes (writes_escaped quote lineEnd), rfl⟩

/-- A content after some quotes is a row of quotes, at most two with those before it, or starts with
so few of them that there are not more than two with those before it. -/
theorem escapeLines_cases {quotes : Nat} (few : quotes ≤ 2) (text : List Char) :
    (∃ count, quotes + count ≤ 2 ∧ text = List.replicate count '"' ∧
      escapeLines quotes text = text) ∨
    ∀ tail, quotes + leading '"' (escapeLines quotes text ++ tail) ≤ 2 := by
  induction text generalizing quotes with
  | nil => exact .inl ⟨0, few, rfl, rfl⟩
  | cons c text ih =>
    rcases escapeLines_cons quotes c text with ⟨rfl, room, whole⟩ | ⟨written, stands, whole⟩
    · -- One quote more comes before the rest.
      have more : quotes + 1 ≤ 2 := room
      rcases ih more with ⟨count, fits, row, same⟩ | short
      · refine .inl ⟨count + 1, by omega, ?_, ?_⟩
        · rw [List.replicate_succ, ← row]
        · rw [whole, same]
      · right
        intro tail
        have sum := short tail
        rw [whole, List.cons_append, leading_cons_self]
        omega
    · obtain ⟨d, more, rfl, notQuote⟩ := stands.starts
      right
      intro tail
      rw [whole, List.cons_append, List.cons_append, leading_cons_ne notQuote]
      exact few

/-- The content between three double quotes is read back, up to the closing quotes. The induction
keeps the number of quotes that come before. -/
theorem readBasicLines_escapeLines {rest : List Char} (other : rest.head? ≠ some '"')
    {quotes fuel : Nat} (few : quotes ≤ 2) {text : List Char} (enough : text.length < fuel) :
    readBasicLines fuel (escapeLines quotes text ++ '"' :: '"' :: '"' :: rest) =
      some (text, rest) := by
  induction text generalizing quotes fuel with
  | nil =>
    obtain ⟨fuel, rfl⟩ := Nat.exists_eq_add_one_of_ne_zero (Nat.ne_zero_of_lt enough)
    rw [escapeLines, List.nil_append, readBasicLines, if_pos rfl, readClosing?_triple other]
  | cons c text ih =>
    obtain ⟨fuel, rfl⟩ := Nat.exists_eq_add_one_of_ne_zero (Nat.ne_zero_of_lt enough)
    replace enough := Nat.lt_of_succ_lt_succ enough
    rcases escapeLines_cons quotes c text with ⟨rfl, room, whole⟩ | ⟨written, stands, whole⟩
    · have next := ih (Nat.succ_le_of_lt room) enough
      have cases := escapeLines_cases few ('"' :: text)
      rw [whole] at cases ⊢
      rw [List.cons_append, readBasicLines, if_pos rfl]
      rcases cases with ⟨count, fits, row, same⟩ | short
      · -- The quote and what follows of the text belong to the last row of quotes.
        have closing := readClosing?_replicate other (by omega : count ≤ 2)
        rw [← List.cons_append, same, row, closing]
      · -- The row ends before it could close the text.
        have unclosed : readClosing? '"'
            ('"' :: (escapeLines (quotes + 1) text ++ '"' :: '"' :: '"' :: rest)) = none := by
          have sum := short ('"' :: '"' :: '"' :: rest)
          rw [List.cons_append] at sum
          apply readClosing?_eq_none
          omega
        rw [unclosed, next]
        rfl
    · rw [whole, List.append_assoc, stands.read, ih (Nat.zero_le 2) enough]
      rfl

/-- A text without three quotes in a row is a row of at most two, or starts with at most two. -/
theorem hasTriple_cases {quote : Char} {text : List Char} (single : hasTriple quote text = false) :
    (∃ count, count ≤ 2 ∧ text = List.replicate count quote) ∨
      ∀ tail, leading quote (text ++ tail) ≤ 2 := by
  match text with
  | [] => exact .inl ⟨0, Nat.zero_le 2, rfl⟩
  | a :: rest =>
    by_cases first : a = quote
    · subst first
      match rest with
      | [] => exact .inl ⟨1, by decide, rfl⟩
      | b :: rest =>
        by_cases second : b = a
        · subst second
          match rest with
          | [] => exact .inl ⟨2, by decide, rfl⟩
          | c :: rest =>
            have third : c ≠ b := by
              rintro rfl
              simp [hasTriple] at single
            exact .inr fun tail => by simp [leading_cons_ne third]
        · exact .inr fun tail => by simp [leading_cons_ne second]
    · exact .inr fun tail => by simp [leading_cons_ne first]

theorem hasTriple_of_cons {quote c : Char} {text : List Char}
    (single : hasTriple quote (c :: text) = false) : hasTriple quote text = false := by
  match text with
  | [] | [_] => rfl
  | a :: b :: rest =>
    rw [hasTriple, Bool.or_eq_false_iff] at single
    exact single.2

/-- The content between three single quotes is the text. -/
theorem readLiteralLines_append {rest : List Char} (other : rest.head? ≠ some '\'')
    {text : List Char} (clean : ∀ c ∈ text, c = '\n' ∨ isPlain c = true)
    (single : hasTriple '\'' text = false) :
    readLiteralLines (text ++ '\'' :: '\'' :: '\'' :: rest) = some (text, rest) := by
  induction text with
  | nil => rw [List.nil_append, readLiteralLines, if_pos rfl, readClosing?_triple other]
  | cons c text ih =>
    obtain ⟨own, others⟩ := List.forall_mem_cons.1 clean
    have next := ih others (hasTriple_of_cons single)
    rw [List.cons_append, readLiteralLines]
    by_cases quote : c = '\''
    · subst quote
      rw [if_pos rfl]
      -- As before, either all of the text is a row of quotes, or the row ends too early.
      rcases hasTriple_cases single with ⟨count, few, row⟩ | short
      · have closing := readClosing?_replicate other few
        rw [← List.cons_append, row, closing]
      · have unclosed : readClosing? '\''
            ('\'' :: (text ++ '\'' :: '\'' :: '\'' :: rest)) = none :=
          readClosing?_eq_none (Nat.lt_succ_of_le (short ('\'' :: '\'' :: '\'' :: rest)))
        rw [unclosed, next]
        rfl
    · rw [if_neg quote, if_pos (by simpa using own), next]
      rfl

/-! ## Written forms -/

/-- What starts with neither half of a line end does not start with a line end. -/
theorem dropLineEnd_cons {c : Char} (notFeed : c ≠ '\n') (notReturn : c ≠ '\r')
    (rest : List Char) : dropLineEnd (c :: rest) = c :: rest := by
  simp [dropLineEnd, afterLineEnd?, notFeed, notReturn]

/-- The line end after the opening quotes does not count, and without it there is none. -/
theorem dropLineEnd_openingLineEnd {text content : List Char}
    (starts : '\n' ∉ text → ∃ c rest, content = c :: rest ∧ c ≠ '\n' ∧ c ≠ '\r') :
    dropLineEnd (openingLineEnd text ++ content) = content := by
  unfold openingLineEnd
  split
  · rfl
  · next one =>
      obtain ⟨c, rest, rfl, notFeed, notReturn⟩ := starts (by simpa using one)
      exact dropLineEnd_cons notFeed notReturn rest

theorem exists_escapeLines_append {text : List Char} (one : '\n' ∉ text) (tail : List Char) :
    ∃ c rest, escapeLines 0 text ++ '"' :: tail = c :: rest ∧ c ≠ '\n' ∧ c ≠ '\r' := by
  cases text with
  | nil => exact ⟨'"', tail, rfl, by decide, by decide⟩
  | cons c text =>
    have lineEnd : c ≠ '\n' := fun same => one (same ▸ List.mem_cons_self)
    by_cases quote : c = '"'
    · subst quote
      exact ⟨'"', _, rfl, by decide, by decide⟩
    · obtain ⟨d, more, written, -, notFeed, notReturn⟩ :=
        exists_cons_of_writes (writes_escaped quote lineEnd)
      rw [escapeLines, if_neg quote, if_neg lineEnd, written]
      exact ⟨d, _, rfl, notFeed, notReturn⟩

theorem length_le_escapeLines (quotes : Nat) (text : List Char) :
    text.length ≤ (escapeLines quotes text).length := by
  induction text generalizing quotes with
  | nil => exact Nat.le_refl 0
  | cons c text ih =>
    rcases escapeLines_cons quotes c text with ⟨rfl, -, whole⟩ | ⟨written, stands, whole⟩
    · rw [whole]
      exact Nat.succ_le_succ (ih (quotes + 1))
    · obtain ⟨d, more, rfl, -⟩ := stands.starts
      have rest := ih 0
      rw [whole, List.length_append, List.length_cons, List.length_cons]
      omega

/-- Without controls all characters can stand for themselves. -/
theorem forall_of_any_isControl {text : List Char} (clean : (!text.any isControl) = true) :
    ∀ c ∈ text, c = '\n' ∨ isPlain c = true := by
  intro c mem
  have none : ¬isControl c = true := fun control => by
    rw [List.any_eq_true.2 ⟨c, mem, control⟩] at clean
    exact absurd clean (by decide)
  by_cases lineEnd : c = '\n'
  · exact .inl lineEnd
  · exact .inr (by simpa [isControl, lineEnd] using none)

/-- A text between single quotes has none, and needs no escapes. -/
theorem forall_of_literal {text : List Char} (form : QuoteForm.of text = .literal) :
    ∀ c ∈ text, isPlain c = true ∧ c ≠ '\'' := by
  rw [QuoteForm.of] at form
  split at form
  · cases form
  · split at form
    · next chosen =>
        rw [Bool.and_eq_true, Bool.and_eq_true] at chosen
        obtain ⟨⟨clean, oneLine⟩, single⟩ := chosen
        intro c mem
        have plain := forall_of_any_isControl clean c mem
        have lineEnd : c ≠ '\n' := by
          rintro rfl
          simp [mem] at oneLine
        refine ⟨plain.resolve_left lineEnd, ?_⟩
        rintro rfl
        simp [mem] at single
    · repeat' split at form
      all_goals cases form

/-- A text between three single quotes needs no escapes, and never has three of them in a row. -/
theorem forall_of_literalLines {text : List Char} (form : QuoteForm.of text = .literalLines) :
    (∀ c ∈ text, c = '\n' ∨ isPlain c = true) ∧ hasTriple '\'' text = false := by
  rw [QuoteForm.of] at form
  iterate 3
    split at form
    · cases form
  split at form
  · next chosen =>
      rw [Bool.and_eq_true] at chosen
      exact ⟨forall_of_any_isControl chosen.1, by simpa using chosen.2⟩
  · split at form <;> cases form

section Forms

variable (text : List Char) {rest : List Char}

/-- Between double quotes. -/
theorem readText_basic (double : rest.head? ≠ some '"') :
    readText ('"' :: (escapeBasic text ++ '"' :: rest)) = some (text, rest) := by
  -- A text between two quotes could only be taken for one between three if it were empty.
  have short : ∀ more, escapeBasic text ++ '"' :: rest ≠ '"' :: '"' :: more := by
    intro more same
    cases text with
    | nil =>
      rw [(List.cons.inj same).2] at double
      exact double rfl
    | cons c text =>
      obtain ⟨written, writes, whole⟩ := exists_escapeBasic_cons c text
      obtain ⟨d, others, rfl, notQuote, -⟩ := exists_cons_of_writes writes
      rw [whole] at same
      exact notQuote (List.cons.inj same).1
  have form : readText ('"' :: (escapeBasic text ++ '"' :: rest)) =
      readBasic ((escapeBasic text ++ '"' :: rest).length + 1)
        (escapeBasic text ++ '"' :: rest) := by
    simp [readText]
  have long := length_le_escapeBasic text
  rw [form]
  apply readBasic_escapeBasic
  rw [List.length_append]
  omega

/-- Between three double quotes. -/
theorem readText_basicLines (double : rest.head? ≠ some '"') :
    readText ('"' :: '"' :: '"' ::
      (openingLineEnd text ++ (escapeLines 0 text ++ '"' :: '"' :: '"' :: rest))) =
        some (text, rest) := by
  have long := length_le_escapeLines 0 text
  rw [readText, dropLineEnd_openingLineEnd fun one => exists_escapeLines_append one _]
  apply readBasicLines_escapeLines double (Nat.zero_le 2)
  rw [List.length_append, List.length_append]
  omega

variable {text}

/-- Between single quotes. -/
theorem readText_literal (single : rest.head? ≠ some '\'')
    (plain : ∀ c ∈ text, isPlain c = true ∧ c ≠ '\'') :
    readText ('\'' :: (text ++ '\'' :: rest)) = some (text, rest) := by
  have short : ∀ more, text ++ '\'' :: rest ≠ '\'' :: '\'' :: more := by
    intro more same
    cases text with
    | nil =>
      rw [(List.cons.inj same).2] at single
      exact single rfl
    | cons c text => exact (plain c List.mem_cons_self).2 (List.cons.inj same).1
  have form : readText ('\'' :: (text ++ '\'' :: rest)) = readLiteral (text ++ '\'' :: rest) := by
    simp [readText]
  rw [form, readLiteral_append plain]

/-- Between three single quotes. -/
theorem readText_literalLines (single : rest.head? ≠ some '\'')
    (clean : ∀ c ∈ text, c = '\n' ∨ isPlain c = true) (few : hasTriple '\'' text = false) :
    readText ('\'' :: '\'' :: '\'' ::
      (openingLineEnd text ++ (text ++ '\'' :: '\'' :: '\'' :: rest))) = some (text, rest) := by
  rw [readText, dropLineEnd_openingLineEnd, readLiteralLines_append single clean few]
  intro one
  cases text with
  | nil => exact ⟨'\'', _, rfl, by decide, by decide⟩
  | cons c text =>
    have lineEnd : c ≠ '\n' := fun same => one (same ▸ List.mem_cons_self)
    refine ⟨c, _, rfl, lineEnd, ?_⟩
    rintro rfl
    exact absurd (clean '\r' List.mem_cons_self) (by decide)

end Forms

/-- A text is read back from its written form, whatever it consists of, if no quote follows. -/
theorem readText_renderText (text : List Char) {rest : List Char} (double : rest.head? ≠ some '"')
    (single : rest.head? ≠ some '\'') : readText (renderText text ++ rest) = some (text, rest) := by
  unfold renderText
  split
  · have basic := readText_basic text double
    simpa using basic
  · next form =>
      have literal := readText_literal single (forall_of_literal form)
      simpa using literal
  · have lines := readText_basicLines text double
    simpa using lines
  · next form =>
      obtain ⟨clean, few⟩ := forall_of_literalLines form
      have lines := readText_literalLines single clean few
      simpa using lines

end RaggedTrajectory.Toml
