import RaggedTrajectory.Proofs.Json.Tokens

/-!
# JSON text is read back

The compact text of a value whose numbers are integers stands for that value. The bound on the depth
of the reader is a bound on the length of the text: every call of it is paid for by a byte that the
call before it consumed.

* `Value.parse?_render`: a value is read back from its compact text.
-/

namespace RaggedTrajectory.Json

namespace Value

/-- A value all of whose numbers are integers. -/
inductive HasIntegers : Value → Prop where
  | null : HasIntegers null
  | bool (b : Bool) : HasIntegers (bool b)
  | number (n : Int) : HasIntegers (ofInt n)
  | string (content : Bytes) : HasIntegers (string content)
  | array {items : List Value} (all : ∀ item ∈ items, HasIntegers item) :
      HasIntegers (array items)
  | object {members : List (Bytes × Value)} (all : ∀ member ∈ members, HasIntegers member.2) :
      HasIntegers (object members)

/-- A value that is read back from its text, if the reader may go as deep as the text is long. -/
def ReadsBack (value : Value) : Prop :=
  ∀ (fuel : Nat) (rest : Bytes), 2 * value.render.length + 1 ≤ fuel → ClosesValue rest →
    readValue fuel (value.render ++ rest) = some (value, rest)

/-- Whether a byte starts a value. -/
def StartsValue (b : UInt8) : Prop := isSpace b = false ∧ b ≠ Ascii.byte ']'

end Value

open Value

theorem isSpace_quote : isSpace (Ascii.byte '"') = false := by decide

theorem isSpace_colon : isSpace (Ascii.byte ':') = false := by decide

theorem isSpace_comma : isSpace (Ascii.byte ',') = false := by decide

theorem isSpace_closingBracket : isSpace (Ascii.byte ']') = false := by decide

theorem isSpace_closingBrace : isSpace (Ascii.byte '\x7d') = false := by decide

/-- White space ends before a byte that is none. -/
theorem skipSpace_cons {b : UInt8} (solid : isSpace b = false) (rest : Bytes) :
    skipSpace (b :: rest) = b :: rest := by
  simp [skipSpace, solid]

/-- The text of an integer starts with a digit or a sign. -/
theorem renderInteger_eq_cons (n : Int) :
    ∃ lead rest, Numeral.renderInteger n = lead :: rest ∧
      (lead = Ascii.byte '-' ∨ Ascii.isDigit lead = true) := by
  unfold Numeral.renderInteger
  split
  · exact ⟨_, _, rfl, .inl rfl⟩
  · cases digits : Ascii.decimal n.natAbs with
    | nil => simp [Ascii.decimal] at digits
    | cons lead rest =>
      exact ⟨lead, rest, rfl, .inr (isDigit_of_mem_decimal (n := n.natAbs) (by simp [digits]))⟩

/-- What starts a number starts no other value. -/
theorem lead_of_number {lead : UInt8} (h : lead = Ascii.byte '-' ∨ Ascii.isDigit lead = true) :
    isSpace lead = false ∧ lead ≠ Ascii.byte '"' ∧ lead ≠ Ascii.byte '[' ∧
      lead ≠ Ascii.byte ']' ∧ lead ≠ Ascii.byte '\x7b' ∧ lead ≠ Ascii.byte 'n' ∧
      lead ≠ Ascii.byte 't' ∧ lead ≠ Ascii.byte 'f' := by
  rcases h with rfl | digit
  · decide
  · refine ⟨?_, ?_, ?_, ?_, ?_, ?_, ?_, ?_⟩
    · simp only [isSpace, Bool.or_eq_false_iff, decide_eq_false_iff_not]
      refine ⟨⟨⟨?_, ?_⟩, ?_⟩, ?_⟩ <;> (rintro rfl; revert digit; decide)
    all_goals (rintro rfl; revert digit; decide)

/-- The text of a value starts with a byte that starts a value. -/
theorem render_eq_cons {value : Value} (integers : value.HasIntegers) :
    ∃ lead rest, value.render = lead :: rest ∧ StartsValue lead := by
  cases integers with
  | null => exact ⟨_, _, rfl, by decide, by decide⟩
  | bool b => cases b <;> exact ⟨_, _, rfl, by decide, by decide⟩
  | number n =>
    obtain ⟨lead, rest, text, number⟩ := renderInteger_eq_cons n
    obtain ⟨solid, -, -, bracket, -⟩ := lead_of_number number
    exact ⟨lead, rest, text, solid, bracket⟩
  | string content => exact ⟨_, _, rfl, by decide, by decide⟩
  | array all => exact ⟨_, _, by rw [render, List.cons_append], by decide, by decide⟩
  | object all => exact ⟨_, _, by rw [render, List.cons_append], by decide, by decide⟩

/-- So does the text of several items. -/
theorem renderItems_eq_cons {item : Value} (integers : item.HasIntegers) (items : List Value) :
    ∃ lead rest, renderItems (item :: items) = lead :: rest ∧ StartsValue lead := by
  obtain ⟨lead, rest, text, starts⟩ := render_eq_cons integers
  cases items with
  | nil => exact ⟨lead, rest, by rw [renderItems, text], starts⟩
  | cons next items =>
    refine ⟨lead, rest ++ Ascii.byte ',' :: renderItems (next :: items), ?_, starts⟩
    rw [renderItems, text, List.cons_append]
    simp

/-- The text of several members starts with the quotation mark of a key. -/
theorem renderMembers_eq_cons (member : Bytes × Value) (members : List (Bytes × Value)) :
    ∃ rest, renderMembers (member :: members) = Ascii.byte '"' :: rest := by
  obtain ⟨key, value⟩ := member
  cases members with
  | nil =>
    rw [renderMembers, renderString]
    exact ⟨_, rfl⟩
  | cons next members =>
    rw [renderMembers, renderString]
    · exact ⟨_, rfl⟩
    · simp

theorem readsBack_number (n : Int) : ReadsBack (ofInt n) := by
  intro fuel rest enough closes
  obtain ⟨fuel, rfl⟩ := Nat.exists_eq_add_one_of_ne_zero (n := fuel) (by omega)
  obtain ⟨lead, tail, text, number⟩ := renderInteger_eq_cons n
  obtain ⟨solid, quote, bracket, -, brace, nullLead, trueLead, falseLead⟩ := lead_of_number number
  have read := readNumber_renderInteger n closes
  rw [text, List.cons_append] at read
  rw [ofInt, render, text, List.cons_append, readValue, skipSpace_cons solid]
  simp [quote, bracket, brace, nullLead, trueLead, falseLead, read]

/-! ## The first byte of a value decides what is read -/

theorem readValue_quote (fuel : Nat) (rest : Bytes) :
    readValue (fuel + 1) (Ascii.byte '"' :: rest) =
      (readString (rest.length + 1) rest).map fun (content, rest) => (string content, rest) := by
  rw [readValue, skipSpace_cons (by decide)]
  exact if_pos rfl

/-- A bracket with an item behind it starts a row of items. -/
theorem readValue_bracket (fuel : Nat) {lead : UInt8} (starts : StartsValue lead)
    (rest : Bytes) :
    readValue (fuel + 1) (Ascii.byte '[' :: lead :: rest) =
      (readItems fuel (lead :: rest)).map fun (items, rest) => (array items, rest) := by
  rw [readValue, skipSpace_cons (by decide)]
  simp only [skipSpace_cons starts.1]
  rw [if_neg (by decide), if_pos trivial, if_neg starts.2]

/-- A brace with a key behind it starts a row of members. -/
theorem readValue_brace (fuel : Nat) (rest : Bytes) :
    readValue (fuel + 1) (Ascii.byte '\x7b' :: Ascii.byte '"' :: rest) =
      (readMembers fuel (Ascii.byte '"' :: rest)).map fun (members, rest) =>
        (object members, rest) := by
  rw [readValue, skipSpace_cons (by decide)]
  simp only [skipSpace_cons isSpace_quote]
  rw [if_neg (by decide), if_neg (by decide), if_pos trivial, if_neg (by decide)]

theorem readsBack_string (content : Bytes) : ReadsBack (string content) := by
  intro fuel rest enough closes
  obtain ⟨fuel, rfl⟩ := Nat.exists_eq_add_one_of_ne_zero (n := fuel) (by omega)
  rw [render, renderString, List.cons_append, List.cons_append, List.append_assoc,
    List.singleton_append, readValue_quote, readString_length_add_one]
  rfl

/-- Items are read back up to the closing bracket, if each of them is read back. -/
theorem readItems_renderItems {items : List Value} (some : items ≠ [])
    (each : ∀ item ∈ items, ReadsBack item) (fuel : Nat) (rest : Bytes)
    (enough : 2 * (renderItems items).length + 2 ≤ fuel) :
    readItems fuel (renderItems items ++ Ascii.byte ']' :: rest) = .some (items, rest) := by
  induction items generalizing fuel with
  | nil => exact absurd rfl some
  | cons item items ih =>
    obtain ⟨fuel, rfl⟩ := Nat.exists_eq_add_one_of_ne_zero (n := fuel) (by omega)
    -- The last item is followed by the bracket, any other by a comma and the items behind it.
    cases items with
    | nil =>
      rw [renderItems] at enough
      have read := each item List.mem_cons_self fuel _ (by omega) (closesValue_bracket rest)
      simp only [renderItems, readItems, read, skipSpace_cons isSpace_closingBracket, if_pos]
    | cons next items =>
      rw [renderItems] at enough
      · simp only [List.length_append, List.length_cons] at enough
        have read := each item List.mem_cons_self fuel
          (Ascii.byte ',' :: (renderItems (next :: items) ++ Ascii.byte ']' :: rest))
          (by omega) (closesValue_comma _)
        have others := ih (by simp) (fun item mem => each item (List.mem_cons_of_mem _ mem)) fuel
          (by omega)
        rw [renderItems, List.append_assoc, List.cons_append, readItems, read]
        · simp only [skipSpace_cons isSpace_comma]
          rw [if_neg (by decide), if_pos trivial, others]
          rfl
        · simp
      · simp

/-- Members are read back up to the closing brace, if each of their values is read back. -/
theorem readMembers_renderMembers {members : List (Bytes × Value)} (some : members ≠ [])
    (each : ∀ member ∈ members, ReadsBack member.2) (fuel : Nat) (rest : Bytes)
    (enough : 2 * (renderMembers members).length + 2 ≤ fuel) :
    readMembers fuel (renderMembers members ++ Ascii.byte '\x7d' :: rest) =
      .some (members, rest) := by
  induction members generalizing fuel with
  | nil => exact absurd rfl some
  | cons member members ih =>
    obtain ⟨key, value⟩ := member
    obtain ⟨fuel, rfl⟩ := Nat.exists_eq_add_one_of_ne_zero (n := fuel) (by omega)
    have readValueAt := each (key, value) List.mem_cons_self fuel
    dsimp only at readValueAt
    -- As for items: the last member is followed by the brace, any other by a comma.
    cases members with
    | nil =>
      rw [renderMembers] at enough
      simp only [List.length_append, List.length_cons] at enough
      have read := readValueAt _ (by omega) (closesValue_brace rest)
      simp only [renderMembers, renderString, List.cons_append, List.append_assoc,
        List.nil_append, readMembers, skipSpace_cons isSpace_quote, if_pos,
        readString_length_add_one,
        skipSpace_cons isSpace_colon, read, skipSpace_cons isSpace_closingBrace]
    | cons next members =>
      rw [renderMembers] at enough
      · simp only [List.length_append, List.length_cons] at enough
        have read := readValueAt
          (Ascii.byte ',' :: (renderMembers (next :: members) ++ Ascii.byte '\x7d' :: rest))
          (by omega) (closesValue_comma _)
        have others := ih (by simp) (fun item mem => each item (List.mem_cons_of_mem _ mem)) fuel
          (by omega)
        rw [renderMembers]
        · simp only [renderString, List.cons_append, List.append_assoc, List.nil_append,
            readMembers, skipSpace_cons isSpace_quote, if_pos, readString_length_add_one,
            skipSpace_cons isSpace_colon, read, skipSpace_cons isSpace_comma]
          rw [if_neg (by decide), others]
          rfl
        · simp
      · simp

/-- A value whose numbers are integers is read back from its text. -/
theorem readsBack_of_hasIntegers {value : Value} (integers : value.HasIntegers) :
    ReadsBack value := by
  -- The induction goes over the value; every case pays for its call with the first byte.
  induction integers with
  | null =>
    intro fuel rest enough _
    obtain ⟨fuel, rfl⟩ := Nat.exists_eq_add_one_of_ne_zero (n := fuel) (by omega)
    rfl
  | bool b =>
    intro fuel rest enough _
    obtain ⟨fuel, rfl⟩ := Nat.exists_eq_add_one_of_ne_zero (n := fuel) (by omega)
    cases b <;> rfl
  | number n => exact readsBack_number n
  | string content => exact readsBack_string content
  | @array items all ih =>
    intro fuel rest enough _
    obtain ⟨fuel, rfl⟩ := Nat.exists_eq_add_one_of_ne_zero (n := fuel) (by omega)
    simp only [render, List.length_append, List.length_cons, List.length_nil] at enough
    rw [render, List.cons_append, List.cons_append, List.append_assoc, List.singleton_append]
    cases items with
    | nil => rfl
    | cons item items =>
      -- The first item does not look like a closing bracket.
      have read := readItems_renderItems (by simp) ih fuel rest (by omega)
      obtain ⟨lead, tail, text, starts⟩ := renderItems_eq_cons (all item List.mem_cons_self) items
      rw [text, List.cons_append] at read ⊢
      rw [readValue_bracket fuel starts, read]
      rfl
  | @object members all ih =>
    intro fuel rest enough _
    obtain ⟨fuel, rfl⟩ := Nat.exists_eq_add_one_of_ne_zero (n := fuel) (by omega)
    simp only [render, List.length_append, List.length_cons, List.length_nil] at enough
    rw [render, List.cons_append, List.cons_append, List.append_assoc, List.singleton_append]
    cases members with
    | nil => rfl
    | cons member members =>
      have read := readMembers_renderMembers (by simp) ih fuel rest (by omega)
      obtain ⟨tail, text⟩ := renderMembers_eq_cons member members
      rw [text, List.cons_append] at read ⊢
      rw [readValue_brace, read]
      rfl

/-- A value whose numbers are integers is what its compact text stands for. -/
theorem Value.parse?_render {value : Value} (integers : value.HasIntegers) :
    parse? value.render = some value := by
  have read := readsBack_of_hasIntegers integers (2 * value.render.length + 2) [] (by omega)
    closesValue_nil
  rw [List.append_nil] at read
  rw [parse?, read]
  rfl

end RaggedTrajectory.Json
