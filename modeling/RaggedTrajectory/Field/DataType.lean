import RaggedTrajectory.Bytes
import RaggedTrajectory.Number.Binary

/-!
# Element types

The four types a stored value can have, their little-endian form, their fill values, and the
conversion of a value of one type to another. A conversion passes through double precision, which
holds every value of every type, and an integer type takes the nearest bound for what it cannot
hold.

* `DataType.decodeElement_encodeElement`: an element is read back bit for bit.
* `DataType.encodeElement_decodeElement`: bytes of the right length are the element they stand for.
-/

namespace RaggedTrajectory

/-- The type of the values of a variable. -/
inductive DataType where
  | float32
  | float64
  | int8
  | int32
  deriving DecidableEq, Repr, Inhabited

namespace DataType

/-- Every type. -/
def all : List DataType := [float32, float64, int8, int32]

/-- The bytes of one element. -/
def size : DataType → Nat
  | float32 | int32 => 4
  | float64 => 8
  | int8 => 1

/-- The name of the type in a schema. -/
def name : DataType → String
  | float32 => "float32"
  | float64 => "float64"
  | int8 => "int8"
  | int32 => "int32"

/-- The type with a given name. -/
def ofName? (name : String) : Option DataType := all.find? fun dtype => dtype.name = name

/-- The values of the type. Floating-point values are bit patterns. -/
abbrev Element : DataType → Type
  | float32 => Binary32
  | float64 => Binary64
  | int8 => Int8
  | int32 => Int32

instance (dtype : DataType) : DecidableEq dtype.Element := by
  cases dtype <;> exact inferInstance

instance (dtype : DataType) : Inhabited dtype.Element := by
  cases dtype <;> exact inferInstance

/-- The little-endian bytes of an element. -/
def encodeElement : (dtype : DataType) → dtype.Element → Bytes
  | float32, x => LittleEndian.encode 4 x.bits.toNat
  | float64, x => LittleEndian.encode 8 x.bits.toNat
  | int8, x => LittleEndian.encode 1 x.toUInt8.toNat
  | int32, x => LittleEndian.encode 4 x.toUInt32.toNat

/-- The element that little-endian bytes stand for. -/
def decodeElement : (dtype : DataType) → Bytes → dtype.Element
  | float32, bytes => ⟨UInt32.ofNat (LittleEndian.decode bytes)⟩
  | float64, bytes => ⟨UInt64.ofNat (LittleEndian.decode bytes)⟩
  | int8, bytes => (UInt8.ofNat (LittleEndian.decode bytes)).toInt8
  | int32, bytes => (UInt32.ofNat (LittleEndian.decode bytes)).toInt32

/-- The value that stands where there is no data. -/
def fill : (dtype : DataType) → dtype.Element
  | float32 => ⟨0x7CF00000⟩
  | float64 => ⟨0x479E000000000000⟩
  | int8 => -127
  | int32 => -2147483647

/-- The value in double precision, which loses nothing. -/
def widen : (dtype : DataType) → dtype.Element → Binary64
  | float32, x => x.widen
  | float64, x => x
  | int8, x => Binary64.ofInt x.toInt
  | int32, x => Binary64.ofInt x.toInt

/-- The nearest single precision value; the integer part, within the bounds of an integer type. -/
def ofBinary64 : (dtype : DataType) → Binary64 → dtype.Element
  | float32, x => x.narrow
  | float64, x => x
  | int8, x => Int8.ofInt (x.truncateWithin (-128) 127)
  | int32, x => Int32.ofInt (x.truncateWithin (-2147483648) 2147483647)

/-- An element as a value of another type. Within one type every bit is kept. -/
def cast (source target : DataType) (x : source.Element) : target.Element :=
  if h : source = target then h ▸ x else target.ofBinary64 (source.widen x)

@[simp]
theorem cast_self (dtype : DataType) (x : dtype.Element) : cast dtype dtype x = x := by
  simp [cast]

@[simp]
theorem length_encodeElement (dtype : DataType) (x : dtype.Element) :
    (dtype.encodeElement x).length = dtype.size := by
  cases dtype <;> simp [encodeElement, size]

theorem size_pos (dtype : DataType) : 0 < dtype.size := by cases dtype <;> decide

theorem decodeElement_encodeElement (dtype : DataType) (x : dtype.Element) :
    dtype.decodeElement (dtype.encodeElement x) = x := by
  cases dtype with
  | float32 =>
    have h := x.bits.toNat_lt
    simp only [decodeElement, encodeElement]
    rw [LittleEndian.decode_encode (by omega)]
    simp
  | float64 =>
    have h := x.bits.toNat_lt
    simp only [decodeElement, encodeElement]
    rw [LittleEndian.decode_encode (by omega)]
    simp
  | int8 =>
    have h := (Int8.toUInt8 x).toNat_lt
    simp only [decodeElement, encodeElement]
    rw [LittleEndian.decode_encode (by omega)]
    simp
  | int32 =>
    have h := (Int32.toUInt32 x).toNat_lt
    simp only [decodeElement, encodeElement]
    rw [LittleEndian.decode_encode (by omega)]
    simp

theorem encodeElement_decodeElement (dtype : DataType) {bytes : Bytes}
    (h : bytes.length = dtype.size) : dtype.encodeElement (dtype.decodeElement bytes) = bytes := by
  have bound := LittleEndian.decode_lt bytes
  have whole := LittleEndian.encode_decode bytes
  rw [h] at bound whole
  cases dtype with
  | float32 =>
    simp only [encodeElement, decodeElement, UInt32.toNat_ofNat_of_lt' bound]
    exact whole
  | float64 =>
    simp only [encodeElement, decodeElement, UInt64.toNat_ofNat_of_lt' bound]
    exact whole
  | int8 =>
    simp only [encodeElement, decodeElement, UInt8.toUInt8_toInt8, UInt8.toNat_ofNat_of_lt' bound]
    exact whole
  | int32 =>
    simp only [encodeElement, decodeElement, UInt32.toUInt32_toInt32,
      UInt32.toNat_ofNat_of_lt' bound]
    exact whole

end DataType

end RaggedTrajectory
