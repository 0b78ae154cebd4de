import RaggedTrajectory.Header

/-!
# The regions of a header

Behind the header lie the schema block, the table and the chunks, each where the one before it
ends. The words of a header say where. They are compared with sums of words, and if the regions end
at a word these sums are exact. If they do not, a build with overflow checks stops, and one without
compares with the low bits.

* `Header.hasConsistentOffsets_eq`: what the check of the offsets gives, in either build.
* `Header.hasConsecutiveRegions_iff`: regions that end at a word are compared as exact numbers.
-/

namespace RaggedTrajectory

namespace Header

/-- The length of a table in a word: a table of 32-bit many entries never wraps. -/
theorem toNat_tableLength (stepCount : UInt32) :
    (stepCount.toUInt64 * UInt64.ofNat entrySize).toNat = stepCount.toNat * entrySize := by
  have bound := stepCount.toNat_lt
  rw [← UInt64.ofNat_uInt32ToNat, ← UInt64.ofNat_mul]
  exact UInt64.toNat_ofNat_of_lt' (by show stepCount.toNat * 40 < 2 ^ 64; omega)

/-- Where the table of a header ends, as an exact number. -/
def regionsEnd (header : Header) : Nat :=
  header.schemaOffset.toNat + header.schemaLength.toNat + header.stepCount.toNat * entrySize

/-- Each region starts where the one before it ends, by the low bits of its end. -/
def HasConsecutiveRegions (header : Header) : Prop :=
  header.schemaOffset = UInt64.ofNat size ∧
    header.tableOffset = header.schemaOffset + header.schemaLength ∧
    header.dataOffset = header.schemaOffset + header.schemaLength +
      header.stepCount.toUInt64 * UInt64.ofNat entrySize

instance (header : Header) : Decidable header.HasConsecutiveRegions :=
  inferInstanceAs (Decidable (_ ∧ _))

variable {overflow : Overflow} {header : Header}

/-- If the schema block of a header is inside a file, its regions end at a word. -/
theorem regionsEnd_lt_of_inside {size : Nat} (short : size < 2 ^ 63)
    (block : header.schemaOffset.toNat + header.schemaLength.toNat ≤ size) :
    header.regionsEnd < 2 ^ 64 := by
  have steps := header.stepCount.toNat_lt
  unfold regionsEnd entrySize
  omega

/-- The end of the schema block is exact if the table ends at a word. -/
theorem toNat_schemaEnd (fits : header.regionsEnd < 2 ^ 64) :
    (header.schemaOffset + header.schemaLength).toNat =
      header.schemaOffset.toNat + header.schemaLength.toNat := by
  rw [UInt64.toNat_add]
  exact Nat.mod_eq_of_lt (Nat.lt_of_le_of_lt (Nat.le_add_right _ _) fits)

/-- Regions that end at a word are consecutive if they are so as exact numbers. -/
theorem hasConsecutiveRegions_iff (fits : header.regionsEnd < 2 ^ 64) :
    header.HasConsecutiveRegions ↔
      header.schemaOffset.toNat = size ∧
      header.tableOffset.toNat = header.schemaOffset.toNat + header.schemaLength.toNat ∧
      header.dataOffset.toNat = header.regionsEnd := by
  have table := toNat_schemaEnd fits
  have data : (header.schemaOffset + header.schemaLength +
      header.stepCount.toUInt64 * UInt64.ofNat entrySize).toNat = header.regionsEnd := by
    rw [UInt64.toNat_add, table, toNat_tableLength]
    exact Nat.mod_eq_of_lt fits
  rw [HasConsecutiveRegions, ← UInt64.toNat_inj, ← UInt64.toNat_inj, ← UInt64.toNat_inj, table,
    data]
  exact Iff.rfl

/-- Where sums stop, the two ends are added up if the second of them is a word. -/
theorem stops_hasConsistentOffsets_of_le (large : 2 ^ 64 ≤ header.regionsEnd) :
    header.hasConsistentOffsets .stops = .error .overflow := by
  rw [hasConsistentOffsets]
  by_cases table : header.schemaOffset.toNat + header.schemaLength.toNat < 2 ^ 64
  -- The block ends at a word, so it is the table that does not.
  · have exact : (header.schemaOffset + header.schemaLength).toNat =
        header.schemaOffset.toNat + header.schemaLength.toNat := by
      rw [UInt64.toNat_add]
      exact Nat.mod_eq_of_lt table
    rw [Overflow.add_of_lt table, Error.ok_bind,
      Overflow.stops_add_of_le (by rw [exact, toNat_tableLength]; exact large)]
    rfl
  · rw [Overflow.stops_add_of_le (Nat.not_lt.mp table)]
    rfl

/-- The check of the offsets: it compares low bits, and where sums stop it gives an answer only if
the regions end at a word. -/
theorem hasConsistentOffsets_eq (overflow : Overflow) (header : Header) :
    header.hasConsistentOffsets overflow =
      if overflow = .stops ∧ 2 ^ 64 ≤ header.regionsEnd then .error .overflow
      else .ok (decide header.HasConsecutiveRegions) := by
  split
  case isTrue wrapped =>
    obtain ⟨rfl, large⟩ := wrapped
    exact stops_hasConsistentOffsets_of_le large
  case isFalse exact =>
    have checked : overflow = .stops → header.regionsEnd < 2 ^ 64 :=
      fun stops => Nat.lt_of_not_le fun large => exact ⟨stops, large⟩
    have table : overflow.add header.schemaOffset header.schemaLength =
        .ok (header.schemaOffset + header.schemaLength) :=
      Overflow.add_eq_ok_iff.mpr
        ⟨rfl, fun stops => Nat.lt_of_le_of_lt (Nat.le_add_right _ _) (checked stops)⟩
    have data : overflow.add (header.schemaOffset + header.schemaLength)
        (header.stepCount.toUInt64 * UInt64.ofNat entrySize) =
        .ok (header.schemaOffset + header.schemaLength +
          header.stepCount.toUInt64 * UInt64.ofNat entrySize) :=
      Overflow.add_eq_ok_iff.mpr ⟨rfl, fun stops => by
        rw [toNat_schemaEnd (checked stops), toNat_tableLength]
        exact checked stops⟩
    rw [hasConsistentOffsets, table, Error.ok_bind, data]
    rfl

/-- The offsets are accepted if the regions are consecutive and, where sums stop, end at a word. -/
theorem hasConsistentOffsets_eq_true_iff :
    header.hasConsistentOffsets overflow = .ok true ↔
      header.HasConsecutiveRegions ∧ (overflow = .stops → header.regionsEnd < 2 ^ 64) := by
  rw [hasConsistentOffsets_eq, Overflow.guarded_eq_ok_iff, Nat.not_le, eq_comm, decide_eq_true_iff]

end Header

end RaggedTrajectory
