import RaggedTrajectory.Error

/-!
# Typed values

`FieldData` is a row of values of one type, used for the arrays of a snapshot and for what is read
back. The values of a vector field are stored particle by particle, three for each.

* `FieldData.decodeElements_flatMap`: elements are read back bit for bit, whatever follows them.
* `FieldData.flatMap_decodeElements`: bytes are the elements they stand for.
-/

namespace RaggedTrajectory

/-- Values of one type. -/
structure FieldData where
  dtype : DataType
  values : Array dtype.Element

namespace FieldData

/-- No values. -/
def empty (dtype : DataType) : FieldData := ⟨dtype, #[]⟩

/-- The number of values. -/
def length (data : FieldData) : Nat := data.values.size

/-- The value repeated. -/
def replicate (dtype : DataType) (count : Nat) (x : dtype.Element) : FieldData :=
  ⟨dtype, Array.replicate count x⟩

/-- The values at the given indices, leaving out indices past the end. -/
def select (data : FieldData) (indices : List Nat) : List data.dtype.Element :=
  indices.filterMap fun i => data.values[i]?

/-- The little-endian bytes of the values at the given indices, each converted to `target`. -/
def encodeAs (data : FieldData) (target : DataType) (indices : List Nat) : Bytes :=
  (data.select indices).flatMap fun x => target.encodeElement (DataType.cast data.dtype target x)

/-- As `encodeAs`, but an index past the end is refused. -/
def encodeAs? (data : FieldData) (target : DataType) (indices : List Nat) : Option Bytes :=
  if indices.all (· < data.length) then some (data.encodeAs target indices) else none

/-- The first `count` elements that bytes hold. -/
def decodeElements (dtype : DataType) : (count : Nat) → Bytes → List dtype.Element
  | 0, _ => []
  | count + 1, bytes =>
    dtype.decodeElement (bytes.take dtype.size) ::
      decodeElements dtype count (bytes.drop dtype.size)

/-- The values that little-endian bytes stand for. -/
def decode (dtype : DataType) (bytes : Bytes) : Except Error FieldData :=
  if bytes.length % dtype.size = 0 then
    .ok ⟨dtype, (decodeElements dtype (bytes.length / dtype.size) bytes).toArray⟩
  else .error (.corrupt (.partialValues bytes.length dtype))

/-- The values followed by others of the same type. -/
def append (data other : FieldData) : Except Error FieldData :=
  if h : other.dtype = data.dtype then .ok ⟨data.dtype, data.values ++ h ▸ other.values⟩
  else .error (.schema (.mixedTypes other.dtype data.dtype))

/-- The values in double precision. -/
def widened (data : FieldData) : List Binary64 :=
  data.values.toList.map (DataType.widen data.dtype)

@[simp]
theorem length_decodeElements (dtype : DataType) (count : Nat) (bytes : Bytes) :
    (decodeElements dtype count bytes).length = count := by
  induction count generalizing bytes with
  | zero => rfl
  | succ count ih => simp [decodeElements, ih]

theorem length_flatMap_encodeElement (dtype : DataType) (elements : List dtype.Element) :
    (elements.flatMap dtype.encodeElement).length = elements.length * dtype.size := by
  induction elements with
  | nil => simp
  | cons x rest ih => simp [ih, Nat.add_mul, Nat.add_comm]

theorem decodeElements_flatMap (dtype : DataType) (elements : List dtype.Element) (rest : Bytes) :
    decodeElements dtype elements.length (elements.flatMap dtype.encodeElement ++ rest) =
      elements := by
  induction elements with
  | nil => rfl
  | cons x tail ih =>
    have h := DataType.length_encodeElement dtype x
    simp only [List.length_cons, List.flatMap_cons, decodeElements, List.append_assoc]
    rw [List.take_append_of_le_length (by omega), List.drop_append_of_le_length (by omega),
      List.take_of_length_le (by omega), List.drop_of_length_le (by omega)]
    simp [DataType.decodeElement_encodeElement, ih]

theorem flatMap_decodeElements (dtype : DataType) {count : Nat} {bytes : Bytes}
    (h : bytes.length = count * dtype.size) :
    (decodeElements dtype count bytes).flatMap dtype.encodeElement = bytes := by
  induction count generalizing bytes with
  | zero => simp at h; simp [decodeElements, h]
  | succ count ih =>
    rw [Nat.succ_mul] at h
    rw [decodeElements, List.flatMap_cons,
      DataType.encodeElement_decodeElement dtype (by simp; omega), ih (by simp; omega),
      List.take_append_drop]

end FieldData

/-- An array of a snapshot: values with the shape of one particle's share. -/
structure ParticleArray where
  shape : FieldShape
  data : FieldData

/-- The number of particles, if the values make up whole particles. -/
def ParticleArray.particleCount? (array : ParticleArray) : Option Nat :=
  if array.data.length % array.shape.width = 0 then
    some (array.data.length / array.shape.width)
  else none

end RaggedTrajectory
