import RaggedTrajectory.Proofs.Chunk.Canonical

/-!
# Rows of values and their bytes

Values are written behind what a buffer holds already, one after the other, in the order in which
their indices are given, each in as many bytes as its type has. Within one type the bits of a value
are copied, so the values at the indices are read back as they are, and bytes that were read are
written again. For another type the values are converted one by one; the number of bytes depends on
the type and on the number of indices alone.

* `FieldData.writeAs?_eq`: what is in the buffer does not matter for what is written behind it.
* `FieldData.decode_encodeAs`: what is read back, for every pair of types.
* `FieldData.exists_decode_iff`: the byte strings that hold whole values.
* `FieldData.encodes_exactly`: lengths, values and bytes.
-/

namespace RaggedTrajectory

namespace FieldData

/-! ## Values at indices -/

section Indices

variable {data : FieldData} {indices : List Nat}

theorem select_cons {i : Nat} (inside : i < data.length) (rest : List Nat) :
    data.select (i :: rest) = data.values[i] :: data.select rest := by
  rw [select, List.filterMap_cons_some (Array.getElem?_eq_getElem inside)]
  rfl

/-- Every index before the end gives the value at its place. -/
theorem map_some_select (inside : ∀ i ∈ indices, i < data.length) :
    (data.select indices).map some = indices.map fun i => data.values[i]? := by
  induction indices with
  | nil => rfl
  | cons i rest ih =>
    obtain ⟨first, others⟩ := List.forall_mem_cons.1 inside
    rw [select_cons first, List.map_cons, List.map_cons, ih others]
    exact congrArg (· :: _) (Array.getElem?_eq_getElem first).symm

theorem length_select (inside : ∀ i ∈ indices, i < data.length) :
    (data.select indices).length = indices.length := by
  have same := congrArg List.length (map_some_select inside)
  rwa [List.length_map, List.length_map] at same

end Indices

/-- The values at the given indices, each as a value of another type. -/
def gathered (data : FieldData) (target : DataType) (indices : List Nat) : FieldData :=
  ⟨target, ((data.select indices).map (DataType.cast data.dtype target)).toArray⟩

@[simp]
theorem gathered_self (data : FieldData) (indices : List Nat) :
    data.gathered data.dtype indices = ⟨data.dtype, (data.select indices).toArray⟩ := by
  have kept : DataType.cast data.dtype data.dtype = id := funext (DataType.cast_self data.dtype)
  rw [gathered, kept, List.map_id]

/-! ## Bytes -/

section Bytes

variable (data : FieldData) (target : DataType) (indices : List Nat)

theorem encodeAs_eq_encode :
    data.encodeAs target indices = (data.gathered target indices).encode := by
  simp [encodeAs, gathered, encode, List.flatMap_map]

/-- What was written is read back as the values at the indices, in the type they were written in. -/
theorem decode_encodeAs :
    decode target (data.encodeAs target indices) = .ok (data.gathered target indices) := by
  rw [encodeAs_eq_encode]
  exact decode_encode (data.gathered target indices)

variable {data indices}

/-- So many indices give so many values of the type that is asked for. -/
theorem length_encodeAs (inside : ∀ i ∈ indices, i < data.length) :
    (data.encodeAs target indices).length = indices.length * target.size := by
  rw [encodeAs_eq_encode, length_encode, length, gathered, List.size_toArray, List.length_map,
    length_select inside]

theorem encodeAs?_eq_some (inside : ∀ i ∈ indices, i < data.length) :
    data.encodeAs? target indices = some (data.encodeAs target indices) := by
  rw [encodeAs?, if_pos (by simpa using inside)]

/-- All values are written as their own bytes. -/
theorem encodeAs?_range (data : FieldData) :
    data.encodeAs? data.dtype (List.range data.length) = some data.encode := by
  rw [encodeAs?_eq_some _ fun i => List.mem_range.1, encodeAs_self]

end Bytes

/-! ## Buffers -/

/-- Writes the values at the given indices behind what a buffer holds, one after the other. An index
past the end is refused. -/
def writeAs? (data : FieldData) (target : DataType) (indices : List Nat) (out : Bytes) :
    Option Bytes :=
  indices.foldlM
    (fun out i => data.values[i]?.map fun x =>
      out ++ target.encodeElement (DataType.cast data.dtype target x)) out

/-- What a buffer holds already is kept, and it does not matter for what is written behind it. -/
theorem writeAs?_eq (data : FieldData) (target : DataType) (indices : List Nat) (out : Bytes) :
    data.writeAs? target indices out = (data.encodeAs? target indices).map (out ++ ·) := by
  -- The induction goes along the indices; the buffer has grown by one value for each of them.
  induction indices generalizing out with
  | nil => simp [writeAs?, encodeAs?, encodeAs, select]
  | cons i rest ih =>
    rw [writeAs?, List.foldlM_cons]
    by_cases first : i < data.length
    · rw [Array.getElem?_eq_getElem first]
      show data.writeAs? target rest _ = _
      rw [ih]
      by_cases others : ∀ i ∈ rest, i < data.length
      · rw [encodeAs?_eq_some target others,
          encodeAs?_eq_some target (List.forall_mem_cons.2 ⟨first, others⟩), encodeAs, encodeAs,
          select_cons first]
        simp
      · simp [encodeAs?, others]
    · have outside : data.values[i]? = none := Array.getElem?_eq_none (Nat.not_lt.1 first)
      rw [outside]
      simp [encodeAs?, first]

/-! ## Whole values -/

/-- Bytes can be read as values of a type if they are a whole number of them. -/
theorem exists_decode_iff (dtype : DataType) (bytes : Bytes) :
    (∃ data, decode dtype bytes = .ok data) ↔ dtype.size ∣ bytes.length := by
  rw [decode, Nat.dvd_iff_mod_eq_zero]
  split
  · next whole => simp [whole]
  · next partly => simp [partly]

/-- What was read has the type that was asked for. -/
theorem dtype_of_decode {dtype : DataType} {bytes : Bytes} {data : FieldData}
    (decoded : decode dtype bytes = .ok data) : data.dtype = dtype := by
  rw [decode] at decoded
  split at decoded
  · cases decoded
    rfl
  · cases decoded

/-- Values at indices before the end are written behind what a buffer holds, in their order and as
many bytes for each as the type that is asked for has, whatever it is. In their own type they are
read back bit for bit. Bytes can be read as values of a type exactly if they are a whole number of
them, and what was read is written again as these bytes. -/
theorem encodes_exactly (data : FieldData) (indices : List Nat)
    (inside : ∀ i ∈ indices, i < data.length) (out : Bytes) :
    (∀ target : DataType, ∃ bytes, data.encodeAs? target indices = some bytes ∧
      data.writeAs? target indices out = some (out ++ bytes) ∧
      bytes.length = indices.length * target.size) ∧
    (∃ bytes values, data.writeAs? data.dtype indices out = some (out ++ bytes) ∧
      decode data.dtype bytes = .ok ⟨data.dtype, values⟩ ∧
      values.toList.map some = indices.map fun i => data.values[i]?) ∧
    ∀ (dtype : DataType) (bytes : Bytes),
      ((∃ read, decode dtype bytes = .ok read) ↔ dtype.size ∣ bytes.length) ∧
      ∀ read, decode dtype bytes = .ok read →
        read.dtype = dtype ∧ read.encodeAs? dtype (List.range read.length) = some bytes := by
  have written (target : DataType) : data.writeAs? target indices out =
      some (out ++ data.encodeAs target indices) := by
    rw [writeAs?_eq, encodeAs?_eq_some target inside, Option.map_some]
  refine ⟨fun target => ?_, ?_, fun dtype bytes => ⟨exists_decode_iff dtype bytes, ?_⟩⟩
  · exact ⟨_, encodeAs?_eq_some target inside, written target, length_encodeAs target inside⟩
  · -- Within one type the values at the indices are not converted.
    have back := decode_encodeAs data data.dtype indices
    rw [gathered_self] at back
    exact ⟨_, _, written data.dtype, back, map_some_select inside⟩
  · -- The type that was asked for is the own type of what was read.
    intro read decoded
    obtain rfl := dtype_of_decode decoded
    rw [encodeAs?_range, encode_eq_of_decode decoded]
    exact ⟨rfl, rfl⟩

/-! ## Patterns that are no numbers -/

namespace Payloads

/-- Three values, of which two are no numbers. -/
def data : FieldData := ⟨.float32, #[⟨0x7FA00001⟩, ⟨0x80000000⟩, ⟨0xFFC12345⟩]⟩

/-- The bytes of the last value and twice those of the first. -/
def bytes : Bytes := [0x45, 0x23, 0xC1, 0xFF, 0x01, 0x00, 0xA0, 0x7F, 0x01, 0x00, 0xA0, 0x7F]

end Payloads

/-- Payloads are kept, in the order of the indices and behind what is there. -/
theorem encodes_exactly_payloads :
    (∀ i ∈ [2, 0, 0], i < Payloads.data.length) ∧
      Payloads.data.writeAs? .float32 [2, 0, 0] [7] = some (7 :: Payloads.bytes) ∧
      ∃ values : Array Binary32, decode .float32 Payloads.bytes = .ok ⟨.float32, values⟩ ∧
        values.toList = [⟨0xFFC12345⟩, ⟨0x7FA00001⟩, ⟨0x7FA00001⟩] := by
  have inside : ∀ i ∈ [2, 0, 0], i < Payloads.data.length := by decide
  have written : Payloads.data.writeAs? .float32 [2, 0, 0] [7] = some (7 :: Payloads.bytes) := by
    decide +kernel
  refine ⟨inside, written, ?_⟩
  obtain ⟨-, ⟨bytes, values, same, back, picked⟩, -⟩ :=
    encodes_exactly Payloads.data [2, 0, 0] inside [7]
  obtain rfl : bytes = Payloads.bytes := by
    have both := same.symm.trans written
    simpa using both
  exact ⟨values, back, (List.map_inj_right fun _ _ => Option.some.inj).1 picked⟩

end FieldData

end RaggedTrajectory
