import RaggedTrajectory.Json.Reading

/-!
# Tokens of JSON text are read back

Strings and integers are written in one way only, and the readers of tokens undo it. A string is
read back byte by byte: one escape stands for one byte, and no escape that is written starts a pair
of surrogates. An integer is read back because what follows a value in a compact text is never a
part of a number.

* `readString_flatMap_escapeByte`: the content of a string is read back.
* `readNumber_renderInteger`: the digits of an integer are read back.
* `Numeral.ofLexeme?_renderInteger`: the digits of an integer stand for it.
-/

namespace RaggedTrajectory.Json

/-! ## Strings -/

/-- The digits of an escaped control stand for it. -/
theorem unit?_control {n : Nat} (h : n < 32) :
    unit? 0x30 0x30 (Ascii.hexDigit (n / 16)) (Ascii.hexDigit (n % 16)) = some n := by
  revert n
  decide

/-- A unit below the surrogates is no half of a pair. -/
theorem pairAhead?_of_lt {unit : Nat} (h : unit < 0xD800) (input : Bytes) :
    pairAhead? unit input = none := by
  have alone (low : Nat) : pair? unit low = none := by
    rw [pair?, if_neg]
    omega
  unfold pairAhead?
  split
  · split
    · cases unit? _ _ _ _ <;> simp [alone]
    · rfl
  · rfl

/-- One step of the reader takes one byte, in whatever form it is written. -/
theorem readString_escapeByte (fuel : Nat) (b : UInt8) (tail : Bytes) :
    readString (fuel + 1) (escapeByte b ++ tail) =
      (readString fuel tail).map fun (content, rest) => (b :: content, rest) := by
  unfold escapeByte
  -- The first seven cases are escapes of two characters.
  iterate 7
    split
    · next h => subst h; simp [readString, Ascii.bytes, Ascii.byte, simpleEscape?]
  split
  -- A control is written with four digits, and is no half of a pair of surrogates.
  · next h =>
    have small : b.toNat < 32 := by simpa [UInt8.lt_iff_toNat_lt] using h
    have escaped : Ascii.bytes "\\u00" = [0x5C, 0x75, 0x30, 0x30] := by decide
    have alone := pairAhead?_of_lt (show b.toNat < 0xD800 by omega) tail
    rw [escaped]
    simp [readString, Ascii.byte, simpleEscape?, unit?_control small, alone, codePointBytes,
      show b.toNat < 128 by omega]
  · next quote backslash _ _ _ _ _ control => simp [readString, quote, backslash, control]

/-- The content of a string is read back, up to the closing quotation mark. -/
theorem readString_flatMap_escapeByte (content rest : Bytes) {fuel : Nat}
    (enough : content.length < fuel) :
    readString fuel (content.flatMap escapeByte ++ Ascii.byte '"' :: rest) =
      some (content, rest) := by
  induction content generalizing fuel with
  | nil =>
    obtain ⟨fuel, rfl⟩ := Nat.exists_eq_add_one_of_ne_zero (Nat.ne_zero_of_lt enough)
    simp [readString]
  | cons b content ih =>
    -- An escape has up to six bytes, but is one step of the reader.
    obtain ⟨fuel, rfl⟩ := Nat.exists_eq_add_one_of_ne_zero (Nat.ne_zero_of_lt enough)
    rw [List.flatMap_cons, List.append_assoc, readString_escapeByte,
      ih (Nat.lt_of_succ_lt_succ enough)]
    rfl

/-- An escaped string is not shorter than its content. -/
theorem length_le_length_flatMap_escapeByte (content : Bytes) :
    content.length ≤ (content.flatMap escapeByte).length := by
  have one (b : UInt8) : 1 ≤ (escapeByte b).length := by
    unfold escapeByte
    repeat' split
    all_goals simp [Ascii.bytes]
  induction content with
  | nil => simp
  | cons b content ih =>
    have := one b
    rw [List.flatMap_cons, List.length_cons, List.length_append]
    omega

/-- The content of a string is read back by a reader that may take as many steps as there are
bytes. -/
theorem readString_length_add_one (content rest : Bytes) :
    readString ((content.flatMap escapeByte ++ Ascii.byte '"' :: rest).length + 1)
      (content.flatMap escapeByte ++ Ascii.byte '"' :: rest) = some (content, rest) := by
  apply readString_flatMap_escapeByte
  have := length_le_length_flatMap_escapeByte content
  rw [List.length_append]
  omega

/-! ## Integers -/

/-- The digits of a number are the digits of its tenth, and its last digit. -/
theorem decimal_eq (n : Nat) :
    Ascii.decimal n =
      if n < 10 then [Ascii.byte n.digitChar]
      else Ascii.decimal (n / 10) ++ [Ascii.byte (n % 10).digitChar] := by
  rw [Ascii.decimal, Nat.toDigits_eq_if (by decide)]
  split
  · rfl
  · rw [List.map_append]
    rfl

theorem isDigit_digitChar {d : Nat} (h : d < 10) :
    Ascii.isDigit (Ascii.byte d.digitChar) = true := by
  revert d
  decide

theorem digitValue_digitChar {d : Nat} (h : d < 10) :
    Ascii.digitValue (Ascii.byte d.digitChar) = d := by
  revert d
  decide

/-- Decimal digits are digits. -/
theorem isDigit_of_mem_decimal {n : Nat} {b : UInt8} (mem : b ∈ Ascii.decimal n) :
    Ascii.isDigit b = true := by
  induction n using Nat.strongRecOn with
  | ind n ih =>
    rw [decimal_eq] at mem
    split at mem
    · next small =>
      obtain rfl := List.mem_singleton.1 mem
      exact isDigit_digitChar small
    · next large =>
      rcases List.mem_append.1 mem with mem | mem
      · exact ih (n / 10) (by omega) mem
      · obtain rfl := List.mem_singleton.1 mem
        exact isDigit_digitChar (Nat.mod_lt _ (by decide))

/-- The digits of a positive number do not start with a zero. -/
theorem head?_decimal_ne {n : Nat} (positive : 0 < n) :
    (Ascii.decimal n).head? ≠ some (Ascii.byte '0') := by
  induction n using Nat.strongRecOn with
  | ind n ih =>
    rw [decimal_eq]
    split
    · next small =>
      have nonzero : ∀ d < 10, 0 < d → [Ascii.byte d.digitChar].head? ≠ some (Ascii.byte '0') := by
        decide
      exact nonzero n small positive
    · next large =>
      have tenth := ih (n / 10) (by omega) (by omega)
      cases digits : Ascii.decimal (n / 10) with
      | nil => simp [Ascii.decimal] at digits
      | cons lead others => simpa [digits] using tenth

/-- The value of digits with a value before them. -/
def digitsFrom (word : Nat) (digits : Bytes) : Nat :=
  digits.foldl (fun n digit => n * 10 + Ascii.digitValue digit) word

theorem le_digitsFrom (word : Nat) (digits : Bytes) : word ≤ digitsFrom word digits := by
  induction digits generalizing word with
  | nil => exact Nat.le_refl _
  | cons digit digits ih =>
    have := ih (word * 10 + Ascii.digitValue digit)
    rw [digitsFrom, List.foldl_cons]
    exact Nat.le_trans (by omega) this

theorem digitsFrom_decimal (n : Nat) : digitsFrom 0 (Ascii.decimal n) = n := by
  induction n using Nat.strongRecOn with
  | ind n ih =>
    rw [decimal_eq]
    split
    · next small => simp [digitsFrom, digitValue_digitChar small]
    · next large =>
      have tenth := ih (n / 10) (by omega)
      unfold digitsFrom at tenth ⊢
      rw [List.foldl_append, tenth, List.foldl_cons, List.foldl_nil,
        digitValue_digitChar (Nat.mod_lt _ (by decide))]
      omega

/-- Digits whose value fits a word are all taken. -/
theorem accumulate_eq {word : Nat} {digits : Bytes}
    (fits : digitsFrom word digits ≤ Numeral.maxWord) :
    Numeral.accumulate word digits = (digitsFrom word digits, []) := by
  induction digits generalizing word with
  | nil => rfl
  | cons digit digits ih =>
    rw [digitsFrom, List.foldl_cons] at fits
    -- The value only grows, so it fits after each digit if it does in the end.
    have step := le_digitsFrom (word * 10 + Ascii.digitValue digit) digits
    rw [Numeral.accumulate, if_neg (Nat.not_lt.2 (Nat.le_trans step fits)), ih fits]
    rfl

/-- What follows a value in a compact text: nothing, a comma or a closing bracket. -/
def ClosesValue (rest : Bytes) : Prop :=
  ∀ b ∈ rest.head?, b = Ascii.byte ',' ∨ b = Ascii.byte ']' ∨ b = Ascii.byte '\x7d'

theorem closesValue_nil : ClosesValue [] := by simp [ClosesValue]

theorem closesValue_comma (rest : Bytes) : ClosesValue (Ascii.byte ',' :: rest) := by
  simp [ClosesValue]

theorem closesValue_bracket (rest : Bytes) : ClosesValue (Ascii.byte ']' :: rest) := by
  simp [ClosesValue]

theorem closesValue_brace (rest : Bytes) : ClosesValue (Ascii.byte '\x7d' :: rest) := by
  simp [ClosesValue]

/-- The digits before the end of a value are taken as they are. -/
theorem takeDigits_decimal (n : Nat) {rest : Bytes} (closes : ClosesValue rest) :
    takeDigits (Ascii.decimal n ++ rest) = (Ascii.decimal n, rest) := by
  have digits : ∀ b ∈ Ascii.decimal n, Ascii.isDigit b = true :=
    fun _ mem => isDigit_of_mem_decimal mem
  -- The digits end where the value does, as what closes it is no digit.
  rw [takeDigits, List.takeWhile_append_of_pos digits, List.dropWhile_append_of_pos digits]
  cases rest with
  | nil => simp
  | cons b rest =>
    have stop : Ascii.isDigit b = false := by
      rcases closes b rfl with rfl | rfl | rfl <;> decide
    simp [stop]

theorem readFraction_of_closesValue {rest : Bytes} (closes : ClosesValue rest) :
    readFraction rest = some ([], rest) := by
  cases rest with
  | nil => rfl
  | cons b rest =>
    have stop : b ≠ Ascii.byte '.' := by
      rcases closes b rfl with rfl | rfl | rfl <;> decide
    rw [readFraction, if_neg stop]

theorem readExponent_of_closesValue {rest : Bytes} (closes : ClosesValue rest) :
    readExponent rest = some ([], rest) := by
  cases rest with
  | nil => rfl
  | cons b rest =>
    have stop : ¬(b = Ascii.byte 'e' ∨ b = Ascii.byte 'E') := by
      rcases closes b rfl with rfl | rfl | rfl <;> decide
    rw [readExponent, if_neg stop]

theorem readUnsigned_decimal (n : Nat) {rest : Bytes} (closes : ClosesValue rest) :
    readUnsigned (Ascii.decimal n ++ rest) = some (Ascii.decimal n, rest) := by
  rw [readUnsigned, takeDigits_decimal n closes]
  cases digits : Ascii.decimal n with
  | nil => simp [Ascii.decimal] at digits
  | cons lead others =>
    have plain : ¬(lead = Ascii.byte '0' ∧ others ≠ []) := by
      -- A zero at the front is the only digit.
      rintro ⟨rfl, more⟩
      rcases Nat.eq_zero_or_pos n with rfl | positive
      · exact more (List.cons.inj digits).2.symm
      · exact head?_decimal_ne positive (by rw [digits]; rfl)
    simp only [if_neg plain, readFraction_of_closesValue closes,
      readExponent_of_closesValue closes, Option.bind_eq_bind, Option.bind_some, List.append_nil]
    rfl

/-- The digits of an integer are read back, with its sign. -/
theorem readNumber_renderInteger (n : Int) {rest : Bytes} (closes : ClosesValue rest) :
    readNumber (Numeral.renderInteger n ++ rest) = some (Numeral.renderInteger n, rest) := by
  unfold Numeral.renderInteger
  split
  · rw [List.cons_append, readNumber, if_pos rfl, readUnsigned_decimal _ closes]
    rfl
  · have unsigned := readUnsigned_decimal n.natAbs closes
    cases digits : Ascii.decimal n.natAbs with
    | nil => simp [Ascii.decimal] at digits
    | cons lead others =>
      have digit : Ascii.isDigit lead = true :=
        isDigit_of_mem_decimal (n := n.natAbs) (by simp [digits])
      have noSign : lead ≠ Ascii.byte '-' := by
        rintro rfl
        exact absurd digit (by decide)
      rw [digits] at unsigned
      rw [List.cons_append, readNumber, if_neg noSign]
      exact unsigned

namespace Numeral

/-- An integer without fraction and exponent has a sign and a whole part only. -/
theorem split_renderInteger (n : Int) :
    split (renderInteger n) = ⟨decide (n < 0), Ascii.decimal n.natAbs, none, none⟩ := by
  have digits := takeDigits_decimal n.natAbs closesValue_nil
  rw [List.append_nil] at digits
  by_cases negative : n < 0
  · simp [split, renderInteger, negative, digits, exponentPart]
  · have noSign : (Ascii.decimal n.natAbs).head? ≠ some (Ascii.byte '-') := by
      intro sign
      have digit := isDigit_of_mem_decimal (List.mem_of_head? sign)
      exact absurd digit (by decide)
    simp [split, renderInteger, negative, digits, exponentPart, noSign]

/-- The digits of an integer of 64 bits, signed or not, stand for it. -/
theorem ofLexeme?_renderInteger {n : Int} (lower : -2 ^ 63 ≤ n) (upper : n < 2 ^ 64) :
    ofLexeme? (renderInteger n) = some (.integer n) := by
  have fits : digitsFrom 0 (Ascii.decimal n.natAbs) ≤ maxWord := by
    rw [digitsFrom_decimal, maxWord]
    omega
  rw [ofLexeme?, split_renderInteger]
  simp only [accumulate_eq fits, digitsFrom_decimal]
  by_cases negative : n < 0
  · have bounded : 0 < n.natAbs ∧ n.natAbs ≤ 2 ^ 63 := by omega
    have same : -(n.natAbs : Int) = n := by omega
    rw [if_neg (by simpa using negative), if_pos bounded, same]
  · have same : (n.natAbs : Int) = n := by omega
    rw [if_pos (by simpa using negative), same]

end Numeral

end RaggedTrajectory.Json
