import RaggedTrajectory.Proofs.Field.Encoding
import RaggedTrajectory.Proofs.Number.Integers

/-!
# Integers are cut off at the bounds of a type

A conversion between the two integer types passes through double precision, which holds every
integer of both. So on the way there nothing is lost, and on the way back an integer that the target
cannot hold becomes its nearest bound. Every other integer is stored as it is, and a wide type gives
back what a narrow one has put in.

* `IntegerType.isInteger_widen`: double precision holds the integers of both types.
* `IntegerType.toInt_cast`: a conversion cuts off at the bounds of the target.
* `FieldData.integers_saturate`: rows of integers that are written and read back.
-/

namespace RaggedTrajectory

open Binary64 (clamp)

/-- The integer types of elements. -/
inductive IntegerType where
  | int8
  | int32
  deriving DecidableEq, Repr

namespace IntegerType

/-- The type as the type of an element. -/
def dtype : IntegerType → DataType
  | int8 => .int8
  | int32 => .int32

/-- The least integer of the type. -/
def low : IntegerType → Int
  | int8 => -128
  | int32 => -2147483648

/-- The greatest integer of the type. -/
def high : IntegerType → Int
  | int8 => 127
  | int32 => 2147483647

/-- The integer that an element is. -/
def toInt : (type : IntegerType) → type.dtype.Element → Int
  | int8, x => Int8.toInt x
  | int32, x => Int32.toInt x

variable (type : IntegerType)

theorem toInt_bounds (x : type.dtype.Element) :
    type.low ≤ type.toInt x ∧ type.toInt x ≤ type.high := by
  cases type with
  | int8 =>
    have lower := Int8.le_toInt x
    have upper := Int8.toInt_lt x
    simp only [low, high, toInt]
    omega
  | int32 =>
    have lower := Int32.le_toInt x
    have upper := Int32.toInt_lt x
    simp only [low, high, toInt]
    omega

theorem toInt_injective {x y : type.dtype.Element} (same : type.toInt x = type.toInt y) :
    x = y := by
  cases type with
  | int8 => exact Int8.toInt_inj.1 same
  | int32 => exact Int32.toInt_inj.1 same

/-- An integer between the bounds is not cut off. -/
theorem clamp_of_bounds {n : Int} (lower : type.low ≤ n) (upper : n ≤ type.high) :
    clamp type.low type.high n = n := by
  rw [clamp]
  omega

/-- What is cut off is between the bounds. -/
theorem clamp_bounds (n : Int) :
    type.low ≤ clamp type.low type.high n ∧ clamp type.low type.high n ≤ type.high := by
  have order : type.low ≤ type.high := by cases type <;> decide
  rw [clamp]
  omega

/-! ## Double precision -/

/-- Double precision holds every integer of the type. -/
theorem isInteger_widen (x : type.dtype.Element) :
    (type.dtype.widen x).datum.IsInteger (type.toInt x) := by
  have bounds := type.toInt_bounds x
  -- Both types are far below the 53 digits of a significand.
  have small : (type.toInt x).natAbs < 2 ^ 53 := by
    cases type <;> simp only [low, high] at bounds <;> omega
  have exact := Binary64.isInteger_ofInt small
  cases type <;> exact exact

/-- From double precision an integer is cut off at the bounds of the type. -/
theorem toInt_ofBinary64 {x : Binary64} {n : Int} (same : x.datum.IsInteger n) :
    type.toInt (type.dtype.ofBinary64 x) = clamp type.low type.high n := by
  have bounds := type.clamp_bounds n
  cases type with
  | int8 =>
    simp only [low, high] at bounds
    simp only [toInt, dtype, DataType.ofBinary64, low, high,
      Binary64.truncateWithin_of_isInteger _ _ same]
    exact Int8.toInt_ofInt_of_le (by omega) (by omega)
  | int32 =>
    simp only [low, high] at bounds
    simp only [toInt, dtype, DataType.ofBinary64, low, high,
      Binary64.truncateWithin_of_isInteger _ _ same]
    exact Int32.toInt_ofInt_of_le (by omega) (by omega)

/-! ## Conversions -/

section Conversions

variable (source target : IntegerType) (x : source.dtype.Element)

/-- A conversion cuts off at the bounds of the target. -/
theorem toInt_cast :
    target.toInt (DataType.cast source.dtype target.dtype x) =
      clamp target.low target.high (source.toInt x) := by
  by_cases same : source = target
  · -- Within one type nothing is converted, and nothing is beyond the bounds.
    subst same
    obtain ⟨lower, upper⟩ := source.toInt_bounds x
    rw [DataType.cast_self, source.clamp_of_bounds lower upper]
  · have other : source.dtype ≠ target.dtype := by
      cases source <;> cases target <;> simp_all [dtype]
    rw [DataType.cast, dif_neg other]
    exact target.toInt_ofBinary64 (source.isInteger_widen x)

/-- An integer that the target can hold is stored as it is, and it comes back. -/
theorem cast_cast (lower : target.low ≤ source.toInt x) (upper : source.toInt x ≤ target.high) :
    DataType.cast target.dtype source.dtype (DataType.cast source.dtype target.dtype x) = x := by
  obtain ⟨own, self⟩ := source.toInt_bounds x
  apply source.toInt_injective
  rw [toInt_cast, toInt_cast, target.clamp_of_bounds lower upper, source.clamp_of_bounds own self]

end Conversions

end IntegerType

namespace FieldData

/-! ## Rows of integers -/

section Rows

variable (source target : IntegerType) (values : Array source.dtype.Element) {indices : List Nat}

/-- What is read back of a row of integers are the integers at the indices, cut off at the bounds of
the type they were written in. -/
theorem toInt_gathered (inside : ∀ i ∈ indices, i < values.size) :
    ∃ stored, gathered ⟨source.dtype, values⟩ target.dtype indices = ⟨target.dtype, stored⟩ ∧
      stored.toList.map (fun x => some (target.toInt x)) =
        indices.map fun i =>
          values[i]?.map fun x => clamp target.low target.high (source.toInt x) := by
  refine ⟨_, rfl, ?_⟩
  -- Values are converted one by one, so what holds for one of them holds for the row.
  have picked : (select ⟨source.dtype, values⟩ indices).map some =
      indices.map fun i => values[i]? := map_some_select inside
  calc _
    _ = ((select ⟨source.dtype, values⟩ indices).map some).map
          (Option.map fun x => clamp target.low target.high (source.toInt x)) := by
      simp only [List.map_map]
      exact List.map_congr_left fun x _ => congrArg some (source.toInt_cast target x)
    _ = _ := by
      rw [picked, List.map_map]
      rfl

/-- A row of integers that is written in a type which holds all of them, read back, and written in
its own type, is written as the row itself. -/
theorem encodeAs_gathered (lower : target.low ≤ source.low) (upper : source.high ≤ target.high)
    (indices : List Nat) :
    (gathered ⟨source.dtype, values⟩ target.dtype indices).encodeAs source.dtype
        (List.range (gathered ⟨source.dtype, values⟩ target.dtype indices).length) =
      encodeAs ⟨source.dtype, values⟩ source.dtype indices := by
  have back (x : source.dtype.Element) :
      DataType.cast target.dtype source.dtype (DataType.cast source.dtype target.dtype x) = x := by
    obtain ⟨least, greatest⟩ := source.toInt_bounds x
    exact source.cast_cast target x (by omega) (by omega)
  rw [encodeAs, select_range, encodeAs]
  simp [gathered, List.flatMap_map, back]

end Rows

/-- Integers that are written in an integer type and read back. In the order of the indices each of
them is the stored integer, cut off at the bounds of the type it was written in. Double precision,
which a conversion passes through, holds every integer of both types, and no two integers are the
same number there. An integer that the target can hold is stored unchanged. A row that is written in
a type which holds all integers of its own type, as a wide one does, read back, written in its own
type and read back again has the integers at the indices as they were. -/
theorem integers_saturate (source target : IntegerType) (values : Array source.dtype.Element)
    (indices : List Nat) (inside : ∀ i ∈ indices, i < values.size) :
    (∃ bytes stored, encodeAs? ⟨source.dtype, values⟩ target.dtype indices = some bytes ∧
      decode target.dtype bytes = .ok ⟨target.dtype, stored⟩ ∧
      stored.toList.map (fun x => some (target.toInt x)) =
        indices.map fun i =>
          values[i]?.map fun x => clamp target.low target.high (source.toInt x)) ∧
    (∀ x y : source.dtype.Element, (source.dtype.widen x).datum.IsInteger (source.toInt x) ∧
      (source.dtype.widen x = source.dtype.widen y → x = y)) ∧
    (∀ x : source.dtype.Element, target.low ≤ source.toInt x → source.toInt x ≤ target.high →
      target.toInt (DataType.cast source.dtype target.dtype x) = source.toInt x) ∧
    (target.low ≤ source.low → source.high ≤ target.high →
      ∃ bytes stored again same,
        encodeAs? ⟨source.dtype, values⟩ target.dtype indices = some bytes ∧
        decode target.dtype bytes = .ok stored ∧
        stored.encodeAs? source.dtype (List.range stored.length) = some again ∧
        decode source.dtype again = .ok ⟨source.dtype, same⟩ ∧
        same.toList.map some = indices.map fun i => values[i]?) := by
  have written (type : DataType) : encodeAs? ⟨source.dtype, values⟩ type indices =
      some (encodeAs ⟨source.dtype, values⟩ type indices) := encodeAs?_eq_some type inside
  have back := decode_encodeAs ⟨source.dtype, values⟩ target.dtype indices
  refine ⟨?_, fun x y => ⟨source.isInteger_widen x, fun same => ?_⟩, fun x lower upper => ?_,
    fun lower upper => ?_⟩
  · obtain ⟨stored, row, integers⟩ := toInt_gathered source target values inside
    exact ⟨_, stored, written target.dtype, by rw [back, row], integers⟩
  · -- A number in double precision is one integer at most.
    have second := source.isInteger_widen y
    rw [← same] at second
    exact source.toInt_injective ((source.isInteger_widen x).unique second)
  · rw [source.toInt_cast, target.clamp_of_bounds lower upper]
  · -- What is written again is what would have been written without the detour.
    have picked : (select ⟨source.dtype, values⟩ indices).map some =
        indices.map fun i => values[i]? := map_some_select inside
    have own := decode_encodeAs ⟨source.dtype, values⟩ source.dtype indices
    rw [← encodeAs_gathered source target values lower upper,
      gathered_self ⟨source.dtype, values⟩] at own
    exact ⟨_, _, _, _, written target.dtype, back,
      encodeAs?_eq_some source.dtype fun i => List.mem_range.1, own, picked⟩

/-! ## A row of four integers -/

namespace Extremes

/-- Two integers that a byte cannot hold, one that is its greatest, and the least of all. -/
def values : Array Int32 := #[200, -300, 127, -2147483648]

/-- The least and the greatest byte, and two others. -/
def narrow : Array Int8 := #[-128, 127, -1, 0]

end Extremes

/-- Integers beyond a bound are stored as the bound, and bytes come back from four times as many
bytes. -/
theorem integers_saturate_extremes :
    (∀ i ∈ [3, 0, 1, 2, 2], i < Extremes.values.size) ∧
      (∃ stored : Array Int8,
        (encodeAs? ⟨.int32, Extremes.values⟩ .int8 [3, 0, 1, 2, 2]).map (decode .int8) =
          some (.ok ⟨.int8, stored⟩) ∧ stored.toList = [-128, 127, -128, 127, 127]) ∧
      IntegerType.low .int32 ≤ IntegerType.low .int8 ∧
      IntegerType.high .int8 ≤ IntegerType.high .int32 ∧
      ∃ bytes stored again, ∃ same : Array Int8,
        encodeAs? ⟨.int8, Extremes.narrow⟩ .int32 [3, 0, 1, 2] = some bytes ∧
        decode .int32 bytes = .ok stored ∧
        stored.encodeAs? .int8 (List.range stored.length) = some again ∧
        decode .int8 again = .ok ⟨.int8, same⟩ ∧ same.toList = [0, -128, 127, -1] := by
  have wide : ∀ i ∈ [3, 0, 1, 2, 2], i < Extremes.values.size := by decide
  have short : ∀ i ∈ [3, 0, 1, 2], i < Extremes.narrow.size := by decide
  have lower : IntegerType.low .int32 ≤ IntegerType.low .int8 := by decide
  have upper : IntegerType.high .int8 ≤ IntegerType.high .int32 := by decide
  refine ⟨wide, ?_, lower, upper, ?_⟩
  · obtain ⟨⟨bytes, stored, written, back, integers⟩, -⟩ :=
      integers_saturate .int32 .int8 Extremes.values [3, 0, 1, 2, 2] wide
    refine ⟨stored, ?_, ?_⟩
    · show (encodeAs? ⟨IntegerType.int32.dtype, Extremes.values⟩ IntegerType.int8.dtype
        [3, 0, 1, 2, 2]).map (decode .int8) = _
      rw [written, Option.map_some]
      exact congrArg some back
    · exact (List.map_inj_right fun _ _ same => Int8.toInt_inj.1 (Option.some.inj same)).1
        (integers.trans (by decide))
  · obtain ⟨-, -, -, comes⟩ := integers_saturate .int8 .int32 Extremes.narrow [3, 0, 1, 2] short
    obtain ⟨bytes, stored, again, same, written, back, put, read, integers⟩ := comes lower upper
    exact ⟨bytes, stored, again, same, written, back, put, read,
      (List.map_inj_right fun _ _ => Option.some.inj).1 integers⟩

end FieldData

end RaggedTrajectory
