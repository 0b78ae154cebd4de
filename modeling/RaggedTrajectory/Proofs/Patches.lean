import RaggedTrajectory.Bytes

/-!
# Patches to byte strings

A patch changes the bytes that it covers and no others, so a file that is made of parts can be
patched part by part.

* `Bytes.overwrite_part`: a patch within a part of a byte string.
* `Bytes.getElem?_overwrite`: a patch changes no byte that it does not cover.
-/

namespace RaggedTrajectory

namespace Bytes

/-- A patch behind a front of a byte string. -/
theorem overwrite_append_right (front back : Bytes) (offset : Nat) (patch : Bytes) :
    (front ++ back).overwrite (front.length + offset) patch =
      front ++ back.overwrite offset patch := by
  have gap : front.length + offset - (front ++ back).length = offset - back.length := by
    rw [List.length_append]
    omega
  rw [overwrite, overwrite, gap, List.take_length_add_append, Nat.add_assoc,
    List.drop_length_add_append]
  simp only [List.append_assoc]

/-- A patch within a front of a byte string. -/
theorem overwrite_append_left (front back : Bytes) {offset : Nat} {patch : Bytes}
    (inside : offset + patch.length ≤ front.length) :
    (front ++ back).overwrite offset patch = front.overwrite offset patch ++ back := by
  have noGap : offset - front.length = 0 := by omega
  have noGapWhole : offset - (front ++ back).length = 0 := by
    rw [List.length_append]
    omega
  rw [overwrite, overwrite, noGap, noGapWhole, List.take_append_of_le_length (by omega),
    List.drop_append_of_le_length inside]
  simp only [List.append_assoc]

/-- A patch at the start. -/
theorem overwrite_zero (bytes patch : Bytes) :
    bytes.overwrite 0 patch = patch ++ bytes.drop patch.length := by
  simp [overwrite]

/-- A patch that lies within a part of a byte string changes only the front of this part. -/
theorem overwrite_part (before old after : Bytes) {patch : Bytes}
    (short : patch.length ≤ old.length) :
    (before ++ (old ++ after)).overwrite before.length patch =
      before ++ (patch ++ old.drop patch.length ++ after) := by
  have whole := overwrite_append_right before (old ++ after) 0 patch
  rw [Nat.add_zero] at whole
  rw [whole, overwrite_append_left old after (by omega), overwrite_zero]

/-- A patch that lies within a byte string keeps its length. -/
theorem length_overwrite {bytes : Bytes} {offset : Nat} {patch : Bytes}
    (inside : offset + patch.length ≤ bytes.length) :
    (bytes.overwrite offset patch).length = bytes.length := by
  simp only [overwrite, List.length_append, List.length_take, List.length_replicate,
    List.length_drop]
  omega

/-- A patch changes no byte that it does not cover. -/
theorem getElem?_overwrite {bytes : Bytes} {offset i : Nat} {patch : Bytes}
    (within : offset ≤ bytes.length) (apart : i < offset ∨ offset + patch.length ≤ i) :
    (bytes.overwrite offset patch)[i]? = bytes[i]? := by
  have noGap : offset - bytes.length = 0 := by omega
  have front : (bytes.take offset).length = offset := List.length_take_of_le within
  rw [overwrite, noGap, List.replicate_zero, List.append_nil]
  -- The bytes in front of the patch are a part of the old ones, and so are those behind it.
  rcases apart with before | behind
  · rw [List.getElem?_append_left, List.getElem?_append_left (by omega),
      List.getElem?_take_of_lt before]
    rw [List.length_append]
    omega
  · rw [List.getElem?_append_right, List.getElem?_drop]
    · congr 1
      rw [List.length_append, front]
      omega
    · rw [List.length_append, front]
      exact behind

/-- Byte strings that differ in a middle part of one length have the same bytes elsewhere. -/
theorem getElem?_middle (front back : Bytes) {first second : Bytes}
    (same : first.length = second.length) {i : Nat}
    (apart : i < front.length ∨ front.length + second.length ≤ i) :
    (front ++ (first ++ back))[i]? = (front ++ (second ++ back))[i]? := by
  rcases apart with before | behind
  · rw [List.getElem?_append_left before, List.getElem?_append_left before]
  · have past : front.length ≤ i := by omega
    have pastFirst : first.length ≤ i - front.length := by omega
    have pastSecond : second.length ≤ i - front.length := by omega
    rw [List.getElem?_append_right past, List.getElem?_append_right past,
      List.getElem?_append_right pastFirst, List.getElem?_append_right pastSecond, same]

/-- Nothing gets shorter by a patch. -/
theorem length_le_overwrite (bytes : Bytes) (offset : Nat) (patch : Bytes) :
    bytes.length ≤ (bytes.overwrite offset patch).length := by
  simp only [overwrite, List.length_append, List.length_take, List.length_replicate,
    List.length_drop]
  omega

end Bytes

end RaggedTrajectory
