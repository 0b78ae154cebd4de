import RaggedTrajectory.Number.Natural

/-!
# Byte strings and little-endian words

Every record of the file format is a concatenation of little-endian words, so one pair of
functions, `LittleEndian.encode` and `LittleEndian.decode`, carries all of them.

* `LittleEndian.decode_encode`: a word that fits its width is read back.
* `LittleEndian.encode_decode`: bytes are the word they decode to, written at their own width.
* `LittleEndian.word_append`: the first word of a record is read and the rest is left.
* `Bytes.slice_append_left`, `Bytes.slice_append_right`: how a part of a file is found.
-/

namespace RaggedTrajectory

/-- A byte string. -/
abbrev Bytes := List UInt8

namespace Bytes

/-- The `count` bytes from offset `start`, fewer if the string ends before. -/
def slice (bytes : Bytes) (start count : Nat) : Bytes :=
  (bytes.drop start).take count

/-- The byte string repeated `count` times. -/
def times (count : Nat) (bytes : Bytes) : Bytes :=
  (List.replicate count bytes).flatten

/-- Puts `patch` at `offset`, over what is there. A gap between the end and `offset` is filled with
zero bytes, and a patch that runs past the end makes the string longer. -/
def overwrite (bytes : Bytes) (offset : Nat) (patch : Bytes) : Bytes :=
  bytes.take offset ++ List.replicate (offset - bytes.length) 0 ++ patch ++
    bytes.drop (offset + patch.length)

theorem length_slice (bytes : Bytes) (start count : Nat) :
    (bytes.slice start count).length = min count (bytes.length - start) := by
  simp [slice]

theorem slice_append_left (a b : Bytes) {start count : Nat} (h : start + count ≤ a.length) :
    slice (a ++ b) start count = a.slice start count := by
  unfold slice
  rw [List.drop_append_of_le_length (by omega), List.take_append_of_le_length]
  simp; omega

theorem slice_append_right (a b : Bytes) {start : Nat} (count : Nat) (h : a.length ≤ start) :
    slice (a ++ b) start count = b.slice (start - a.length) count := by
  unfold slice
  rw [List.drop_append]
  simp [List.drop_eq_nil_of_le h]

theorem slice_zero_length (a : Bytes) : a.slice 0 a.length = a := by simp [slice]

/-- Writing at the end only appends. -/
theorem overwrite_end (bytes patch : Bytes) :
    bytes.overwrite bytes.length patch = bytes ++ patch := by
  simp [overwrite]

end Bytes

namespace LittleEndian

/-- The `width` low bytes of `value`, least significant first. -/
def encode : (width value : Nat) → Bytes
  | 0, _ => []
  | width + 1, value => UInt8.ofNat value :: encode width (value / 256)

/-- The number whose bytes, least significant first, these are. -/
def decode : Bytes → Nat
  | [] => 0
  | byte :: rest => byte.toNat + 256 * decode rest

/-- The word of `width` bytes at offset `start`; bytes past the end count as zero. -/
def wordAt (bytes : Bytes) (start width : Nat) : Nat :=
  decode (bytes.slice start width)

/-- Reads a word from the front of a byte string. -/
def word (width : Nat) : StateM Bytes Nat :=
  fun bytes => (decode (bytes.take width), bytes.drop width)

@[simp]
theorem length_encode (width value : Nat) : (encode width value).length = width := by
  induction width generalizing value with
  | zero => rfl
  | succ width ih => simp [encode, ih]

/-- A word written at a width is read back modulo that width. -/
theorem decode_encode_mod (width value : Nat) :
    decode (encode width value) = value % 256 ^ width := by
  induction width generalizing value with
  | zero => simp [encode, decode, Nat.mod_one]
  | succ width ih =>
    rw [encode, decode, ih, Nat.pow_succ', Nat.mod_mul]
    simp

theorem decode_encode {width value : Nat} (h : value < 256 ^ width) :
    decode (encode width value) = value := by
  rw [decode_encode_mod, Nat.mod_eq_of_lt h]

theorem decode_lt (bytes : Bytes) : decode bytes < 256 ^ bytes.length := by
  induction bytes with
  | nil => simp [decode]
  | cons byte rest ih =>
    have hb := byte.toNat_lt
    rw [decode, List.length_cons, Nat.pow_succ']
    omega

theorem encode_decode (bytes : Bytes) : encode bytes.length (decode bytes) = bytes := by
  induction bytes with
  | nil => rfl
  | cons byte rest ih =>
    have hb := byte.toNat_lt
    rw [List.length_cons, encode, decode, Nat.add_mul_div_left _ _ (by omega),
      Nat.div_eq_of_lt hb, Nat.zero_add, ih]
    congr 1
    apply UInt8.toNat_inj.1
    simp

theorem word_append {width value : Nat} (rest : Bytes) (h : value < 256 ^ width) :
    word width (encode width value ++ rest) = (value, rest) := by
  have hlen := length_encode width value
  rw [word, List.take_append_of_le_length (by omega), List.drop_append_of_le_length (by omega),
    List.take_of_length_le (by omega), List.drop_of_length_le (by omega), decode_encode h]
  rfl

end LittleEndian

end RaggedTrajectory
