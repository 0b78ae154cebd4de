import RaggedTrajectory.Compression.Window

/-!
# Writing bits

Numbers are put one after another into bytes, the lowest bit first. A stream that is read backwards
ends with a bit that is set, so that its end can be found.
-/

namespace RaggedTrajectory.Zstd

/-- Bytes that were written, and the bits that do not fill a byte yet. -/
structure BitWriter where
  bytes : Array UInt8
  /-- The bits that wait, as a number. -/
  pending : Nat
  /-- How many bits wait. -/
  count : Nat

namespace BitWriter

/-- Nothing is written. -/
def empty : BitWriter := ⟨#[], 0, 0⟩

/-- Writes the lowest `width` bits of a number. -/
def put (writer : BitWriter) (value width : Nat) : BitWriter :=
  let pending := writer.pending + value % 2 ^ width * 2 ^ writer.count
  let count := writer.count + width
  ⟨Compression.pushAll writer.bytes (LittleEndian.encode (count / 8) pending),
    pending / 2 ^ (count / 8 * 8), count % 8⟩

/-- All bytes; the last one is filled up with zeros. -/
def finish (writer : BitWriter) : Bytes :=
  (Compression.pushAll writer.bytes
    (LittleEndian.encode ((writer.count + 7) / 8) writer.pending)).toList

/-- All bytes of a stream that is read backwards. -/
def close (writer : BitWriter) : Bytes := (writer.put 1 1).finish

end BitWriter

end RaggedTrajectory.Zstd
