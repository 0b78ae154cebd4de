import RaggedTrajectory.Checksum.Crc32

/-!
# The checksum of a changed byte

The register of a checksum forgets nothing. A shift can be undone: the bit that leaves the register
comes back as its highest bit, because the generator has that bit. So registers that differ once
stay different whatever bytes follow, and two byte strings that differ in one byte alone never have
the same checksum, however long they are.

* `Crc32.shift_injective`: a shift can be undone.
* `Crc32.checksum_set_ne`: another byte in one place makes another checksum.
-/

namespace RaggedTrajectory.Crc32

/-! ## One shift -/

/-- Whether the lowest bit of a register is set. -/
theorem and_one_eq_one_iff (register : UInt32) :
    register &&& 1 = 1 ↔ register.toBitVec.getLsbD 0 = true := by
  have low : (register &&& 1).toNat = register.toNat % 2 := by
    rw [UInt32.toNat_and]
    exact Nat.and_two_pow_sub_one_eq_mod register.toNat 1
  rw [← UInt32.toNat_inj, low]
  show register.toNat % 2 = 1 ↔ register.toNat.testBit 0 = true
  rw [Nat.testBit_zero, decide_eq_true_iff]

/-- The highest bit after a shift is the one that has left. -/
theorem msb_shift (register : UInt32) :
    (shift register).toBitVec.msb = register.toBitVec.getLsbD 0 := by
  have high : generator.toBitVec.msb = true := by decide
  unfold shift
  by_cases low : register.toBitVec.getLsbD 0 = true
  · rw [if_pos ((and_one_eq_one_iff register).2 low), low, UInt32.toBitVec_xor, BitVec.msb_xor,
      high]
    simp
  · rw [if_neg (mt (and_one_eq_one_iff register).1 low)]
    rw [Bool.not_eq_true] at low
    rw [low]
    simp

theorem shift_injective : Function.Injective shift := by
  intro first second same
  have low : first.toBitVec.getLsbD 0 = second.toBitVec.getLsbD 0 := by
    rw [← msb_shift, ← msb_shift, same]
  -- As the bit that left is the same, so is what was subtracted.
  have others : first >>> 1 = second >>> 1 := by
    unfold shift at same
    simp only [and_one_eq_one_iff, low] at same
    split at same
    · exact (UInt32.xor_left_inj _).1 same
    · exact same
  apply UInt32.toBitVec_inj.1
  apply BitVec.eq_of_getLsbD_eq
  intro i inside
  cases i with
  | zero => exact low
  | succ i =>
    have bits := congrArg (fun register => register.toBitVec.getLsbD i) others
    simpa [Nat.add_comm] using bits

/-! ## Bytes -/

/-- What takes a byte into the register, apart from the byte itself. -/
theorem step_injective {first second : UInt32} {byte other : UInt8}
    (same : step first byte = step second other) :
    first ^^^ byte.toUInt32 = second ^^^ other.toUInt32 := by
  have eight : ∀ {a b : UInt32},
      shift (shift (shift (shift (shift (shift (shift (shift a))))))) =
        shift (shift (shift (shift (shift (shift (shift (shift b))))))) → a = b := by
    intro a b same
    iterate 8 replace same := shift_injective same
    exact same
  exact eight same

/-- Registers that differ stay different. -/
theorem foldl_step_injective (bytes : Bytes) :
    Function.Injective fun register : UInt32 => bytes.foldl step register := by
  induction bytes with
  | nil => exact Function.injective_id
  | cons byte bytes ih =>
    intro first second same
    exact (UInt32.xor_left_inj _).1 (step_injective (ih same))

/-- The checksum tells apart what stands in one place. -/
theorem checksum_append_cons_inj {front back : Bytes} {byte other : UInt8}
    (same : checksum (front ++ byte :: back) = checksum (front ++ other :: back)) :
    byte = other := by
  unfold checksum at same
  rw [List.foldl_append, List.foldl_append] at same
  have registers := foldl_step_injective back ((UInt32.xor_left_inj _).1 same)
  have words := (UInt32.xor_right_inj _).1 (step_injective registers)
  exact UInt8.toUInt32_inj.1 words

theorem checksum_set_ne {bytes : Bytes} {place : Nat} {value : UInt8}
    (inside : place < bytes.length) (changed : bytes[place] ≠ value) :
    checksum (bytes.set place value) ≠ checksum bytes := by
  intro same
  rw [List.set_eq_take_append_cons_drop, if_pos inside] at same
  have split : bytes = bytes.take place ++ bytes[place] :: bytes.drop (place + 1) := by
    rw [← List.drop_eq_getElem_cons inside, List.take_append_drop]
  conv at same => rhs; rw [split]
  exact changed (checksum_append_cons_inj same).symm

end RaggedTrajectory.Crc32
