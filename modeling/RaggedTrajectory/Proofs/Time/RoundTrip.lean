import RaggedTrajectory.Proofs.Schema.Derivation

/-!
# The origin of time is read back

A file says when its run started by a text in the units of time. The year may have a sign and more
than four digits, the fraction of a second any of four widths, and a leap second is the second 60.
Still the text stands for one moment: a number ends where its width is reached, or at a character
that is no digit, so every number is read back before the next one.

* `Timestamp.readDigits_append`: where a number ends.
* `Timestamp.parse?_format`: every moment is read back from its text.
* `Registry.timeOrigin_of_plan`: the origin of time is read back from the schema of a file.
-/

namespace RaggedTrajectory

/-! ## Numbers -/

namespace Text

/-- No digit is white space. -/
theorem isBlank_of_isDigit {c : Char} (digit : c.isDigit = true) : isBlank c = false := by
  have bounds : 48 ≤ c.toNat ∧ c.toNat ≤ 57 := by
    simpa [Char.isDigit, UInt32.le_iff_toNat_le] using digit
  simp only [isBlank, CodeRanges.contains, blanks, List.any_cons, List.any_nil, Bool.or_false,
    Bool.or_eq_false_iff, Bool.and_eq_false_imp, decide_eq_true_eq, decide_eq_false_iff_not]
  omega

/-- Text that starts with a digit is left as it is. -/
theorem dropBlanks_append {digits : List Char} (rest : List Char)
    (each : ∀ c ∈ digits, c.isDigit = true) (some : digits ≠ []) :
    dropBlanks (digits ++ rest) = digits ++ rest := by
  obtain ⟨c, digits, rfl⟩ := List.exists_cons_of_ne_nil some
  exact List.dropWhile_cons_of_neg (by simp [isBlank_of_isDigit (each c List.mem_cons_self)])

end Text

namespace Timestamp

theorem digitsValue_eq (digits : List Char) :
    digitsValue digits = Nat.ofDigitChars 10 digits 0 := by
  rw [digitsValue, Nat.ofDigitChars_eq_foldl]
  congr 1
  funext n c
  rw [Nat.mul_comm]

/-- Zeros in front do not change a number. -/
theorem digitsValue_padded (width n : Nat) : digitsValue (padded width n) = n := by
  rw [digitsValue_eq, padded, Nat.ofDigitChars_append, Nat.ofDigitChars_replicate_zero]
  exact Nat.ofDigitChars_toDigits (by decide) (by decide)

theorem isDigit_of_mem_padded {width n : Nat} {c : Char} (mem : c ∈ padded width n) :
    c.isDigit = true := by
  rcases List.mem_append.1 mem with mem | mem
  · obtain ⟨-, rfl⟩ := List.mem_replicate.1 mem
    decide
  · exact Nat.isDigit_of_mem_toDigits (by decide) (by decide) mem

theorem padded_ne_nil (width n : Nat) : padded width n ≠ [] := by
  simp [padded, Nat.toDigits_ne_nil]

/-- A number that is small enough fills the width. -/
theorem length_padded {width n : Nat} (positive : 0 < width) (small : n < 10 ^ width) :
    (padded width n).length = width := by
  have short := (Nat.length_toDigits_le_iff (b := 10) (by decide) positive).2 small
  rw [padded, List.length_append, List.length_replicate]
  omega

/-- Digits are read up to the width, or up to a character that is no digit. -/
theorem readDigits_append {width : Nat} {digits rest : List Char}
    (each : ∀ c ∈ digits, c.isDigit = true) (some : digits ≠ []) (fits : digits.length ≤ width)
    (ends : digits.length = width ∨ ∀ c ∈ rest.head?, c.isDigit = false) :
    readDigits width (digits ++ rest) = Option.some (digits, rest) := by
  -- Either there is no room for more digits, or the rest does not start with one.
  have none : (rest.take (width - digits.length)).takeWhile Char.isDigit = [] := by
    rcases ends with full | stop
    · rw [full, Nat.sub_self, List.take_zero, List.takeWhile_nil]
    · cases rest with
      | nil => rw [List.take_nil, List.takeWhile_nil]
      | cons c rest =>
        cases width - digits.length with
        | zero => rfl
        | succ count => exact List.takeWhile_cons_of_neg (by simp [stop c rfl])
  have read : ((digits ++ rest).take width).takeWhile Char.isDigit = digits := by
    rw [List.take_append, List.take_of_length_le fits, List.takeWhile_append_of_pos each, none,
      List.append_nil]
  rw [readDigits, read]
  simp [some]

/-- A number of two digits is read back, whatever follows. -/
theorem readPair_padded {n : Nat} (small : n < 100) (rest : List Char) :
    readPair (padded 2 n ++ rest) = some (n, rest) := by
  have each : ∀ c ∈ padded 2 n, c.isDigit = true := fun _ => isDigit_of_mem_padded
  have full : (padded 2 n).length = 2 := length_padded (by decide) small
  rw [readPair, Text.dropBlanks_append rest each (padded_ne_nil 2 n),
    readDigits_append each (padded_ne_nil 2 n) (Nat.le_of_eq full) (.inl full)]
  simp only [Option.map_some, digitsValue_padded]

/-! ## Years -/

/-- A year that starts with a digit is read without a sign. -/
theorem readYear_of_isDigit {digits : List Char} (rest : List Char)
    (each : ∀ c ∈ digits, c.isDigit = true) (some : digits ≠ []) :
    readYear (digits ++ rest) =
      (readDigits 4 (digits ++ rest)).map fun (digits, rest) =>
        ((digitsValue digits : Int), rest) := by
  rw [readYear, Text.dropBlanks_append rest each some]
  obtain ⟨c, digits, rfl⟩ := List.exists_cons_of_ne_nil some
  have digit := each c List.mem_cons_self
  split
  · next sign =>
    obtain ⟨rfl, -⟩ := List.cons.inj sign
    cases digit
  · next sign =>
    obtain ⟨rfl, -⟩ := List.cons.inj sign
    cases digit
  · rfl

theorem readYear_minus (text : List Char) :
    readYear ('-' :: text) =
      (readDigits text.length text).map fun (digits, rest) =>
        (-(digitsValue digits : Int), rest) := rfl

theorem readYear_plus (text : List Char) :
    readYear ('+' :: text) =
      (readDigits text.length text).map fun (digits, rest) =>
        ((digitsValue digits : Int), rest) := rfl

/-- A year is read back, up to the dash behind it. -/
theorem readYear_yearText (year : Int) (rest : List Char) :
    readYear (yearText year ++ '-' :: rest) = some (year, '-' :: rest) := by
  have each (n : Nat) : ∀ c ∈ padded 4 n, c.isDigit = true := fun _ => isDigit_of_mem_padded
  -- A signed number may take all the text; it ends where the digits do.
  have signed : readDigits (padded 4 year.natAbs ++ '-' :: rest).length
      (padded 4 year.natAbs ++ '-' :: rest) = some (padded 4 year.natAbs, '-' :: rest) :=
    readDigits_append (each _) (padded_ne_nil 4 _) (by simp) (.inr (by simp))
  unfold yearText
  split
  · next plain =>
    have full : (padded 4 year.toNat).length = 4 := length_padded (by decide) (by omega)
    rw [readYear_of_isDigit _ (each _) (padded_ne_nil 4 _),
      readDigits_append (each _) (padded_ne_nil 4 _) (Nat.le_of_eq full) (.inl full)]
    simp only [Option.map_some, digitsValue_padded, Int.toNat_of_nonneg plain.1]
  · split
    · next negative =>
      rw [List.cons_append, readYear_minus, signed]
      simp only [Option.map_some, digitsValue_padded]
      congr 2
      omega
    · next positive =>
      rw [List.cons_append, readYear_plus, signed]
      simp only [Option.map_some, digitsValue_padded]
      congr 2
      omega

/-! ## Fractions of a second -/

/-- Digits behind the point are as many nanoseconds as if they were nine. -/
theorem readFraction_padded {width n : Nat} (positive : 0 < width) (fits : width ≤ 9)
    (small : n < 10 ^ width) :
    readFraction ('.' :: padded width n) = some (n * 10 ^ (9 - width), []) := by
  have each : ∀ c ∈ padded width n, c.isDigit = true := fun _ => isDigit_of_mem_padded
  have full : (padded width n).length = width := length_padded positive small
  have read : readDigits 9 (padded width n ++ []) = some (padded width n, []) :=
    readDigits_append each (padded_ne_nil width n) (Nat.le_trans (Nat.le_of_eq full) fits)
      (.inr (by simp))
  rw [List.append_nil] at read
  simp only [readFraction, read, Option.map_some, digitsValue_padded, full, List.dropWhile_nil]

/-- A fraction is read back, in whichever of the four forms it is written. -/
theorem readFraction_fractionText {n : Nat} (small : n < perSecond) :
    readFraction (fractionText n) = some (n, []) := by
  unfold perSecond at small
  unfold fractionText
  -- The digits that are left out are zeros, so their number is not lost.
  split
  · next whole =>
    rw [whole]
    rfl
  split
  · next milli =>
    rw [readFraction_padded (by decide) (by decide) (by omega)]
    congr 2
    omega
  split
  · next micro =>
    rw [readFraction_padded (by decide) (by decide) (by omega)]
    congr 2
    omega
  · rw [readFraction_padded (by decide) (by decide) (by omega)]
    congr 2
    omega

/-! ## Moments -/

/-- The parts of a moment are small enough for two digits, and a second with its leap second too. -/
theorem lt_of_isValid {t : Timestamp} (valid : t.isValid = true) :
    t.month < 100 ∧ t.day < 100 ∧ t.hour < 100 ∧ t.minute < 100 ∧
      t.second + t.nanosecond / perSecond < 100 := by
  obtain ⟨date, hour, minute, second, nanosecond⟩ := of_decide_eq_true valid
  obtain ⟨-, -, -, month, -, day⟩ := of_decide_eq_true date
  have days : Calendar.daysInMonth t.year t.month ≤ 31 := by
    unfold Calendar.daysInMonth
    repeat' split
    all_goals decide
  unfold perSecond at *
  omega

/-- The last second of a minute with the leap second behind it, and any other second, are told apart
by their numbers. -/
theorem ofSecond_eq {t : Timestamp} (valid : t.isValid = true) :
    (if t.second + t.nanosecond / perSecond = 60 then
      ⟨t.year, t.month, t.day, t.hour, t.minute, 59, perSecond + t.nanosecond % perSecond⟩
    else
      ⟨t.year, t.month, t.day, t.hour, t.minute, t.second + t.nanosecond / perSecond,
        t.nanosecond % perSecond⟩) = t := by
  obtain ⟨-, -, -, second, nanosecond⟩ := of_decide_eq_true valid
  obtain ⟨year, month, day, hour, minute, number, nanos⟩ := t
  simp only at second nanosecond ⊢
  by_cases ordinary : nanos < perSecond
  · -- The second that is written is the one there is, which is never 60.
    rw [Nat.div_eq_of_lt ordinary, Nat.mod_eq_of_lt ordinary, if_neg (by omega)]
    rfl
  · -- A leap second follows the second 59, and its fraction is that of the second 60.
    obtain ⟨rfl, leap⟩ := nanosecond.resolve_left ordinary
    have quotient : nanos / perSecond = 1 := by
      unfold perSecond at *
      omega
    have all : perSecond + nanos % perSecond = nanos := by
      unfold perSecond at *
      omega
    rw [quotient, if_pos rfl, all]

/-- Every moment is read back from its text. -/
theorem parse?_format {t : Timestamp} (valid : t.isValid = true) :
    parse? t.format.toList = some t := by
  obtain ⟨month, day, hour, minute, second⟩ := lt_of_isValid valid
  have fraction := readFraction_fractionText (Nat.mod_lt t.nanosecond (by decide : 0 < perSecond))
  have blank (n : Nat) (rest : List Char) :
      Text.dropBlanks (' ' :: (padded 2 n ++ rest)) = padded 2 n ++ rest :=
    Text.dropBlanks_append rest (fun _ => isDigit_of_mem_padded) (padded_ne_nil 2 n)
  rw [format, String.toList_ofList, wholeText]
  -- Each part is read back in front of the next one.
  simp only [parse?, List.append_assoc, List.cons_append, Option.bind_eq_bind, Option.bind_some,
    readYear_yearText, afterChar, if_true, blank, readPair_padded month, readPair_padded day,
    readPair_padded hour, readPair_padded minute, readPair_padded second, fraction,
    ofSecond_eq valid]
  exact if_pos ⟨trivial, valid⟩

/-- A leap second of a year before the year zero. -/
example :
    (⟨-5, 2, 28, 23, 59, 59, 1500000000⟩ : Timestamp).format = "-0005-02-28 23:59:60.500" := by
  decide

end Timestamp

/-! ## Units of time -/

namespace FileSchema

theorem afterStart?_append (start text : List Char) :
    afterStart? start (start ++ text) = some text := by
  rw [afterStart?, if_pos (List.isPrefixOf_iff_prefix.2 (List.prefix_append _ _)), List.drop_left]

end FileSchema

namespace RunLayout

/-- The variable of time is found by its name, whatever the names of the fields are. -/
theorem timeUnits?_fileSchema (layout : RunLayout) (globals : GlobalAttributes)
    (created : Timestamp) :
    (layout.fileSchema globals created).timeUnits? = some layout.timeUnits := rfl

/-- The origin of time is read back from the schema of any layout. -/
theorem timeOrigin_fileSchema {layout : RunLayout} (valid : layout.startTime.isValid = true)
    (globals : GlobalAttributes) (created : Timestamp) :
    (layout.fileSchema globals created).timeOrigin = .ok layout.startTime := by
  rw [FileSchema.timeOrigin, layout.timeUnits?_fileSchema globals created]
  simp only [timeUnits, String.toList_append, FileSchema.afterStart?_append,
    Timestamp.parse?_format valid]

end RunLayout

namespace Registry

/-- The origin of time of a planned run is read back exactly from the schema of its files, for every
moment of the calendar and whatever else the schema says. -/
theorem timeOrigin_of_plan {registry : Registry} {parameters : RunParameters} {extended : Bool}
    {layout : RunLayout} {start : Timestamp} (given : parameters.startTime = some start)
    (valid : start.isValid = true) (planned : registry.plan parameters extended = .ok layout)
    (globals : GlobalAttributes) (created : Timestamp) :
    (layout.fileSchema globals created).timeOrigin = .ok start := by
  obtain ⟨own, -⟩ := plan_eq_ok_iff.1 planned
  obtain rfl : start = layout.startTime := Option.some.inj (given.symm.trans own)
  exact layout.timeOrigin_fileSchema valid globals created

namespace Earliest

/-- A leap second in the first year of the calendar. -/
def start : Timestamp := ⟨-262143, 2, 28, 23, 59, 59, 1000000001⟩

def layout : RunLayout := ⟨start, 1, false, standardManifest⟩

end Earliest

theorem timeOrigin_earliest :
    Earliest.start.isValid = true ∧
      default.plan ⟨some Earliest.start, some 1, false, none⟩ false = .ok Earliest.layout ∧
      (Earliest.layout.fileSchema {} Earliest.start).timeOrigin = .ok Earliest.start := by
  have valid : Earliest.start.isValid = true := by decide
  have planned : default.plan ⟨some Earliest.start, some 1, false, none⟩ false =
      .ok Earliest.layout := rfl
  exact ⟨valid, planned, timeOrigin_of_plan rfl valid planned {} Earliest.start⟩

end Registry

end RaggedTrajectory
