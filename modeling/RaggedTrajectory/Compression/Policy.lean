import RaggedTrajectory.Compression.Codec
import RaggedTrajectory.Compression.Lz4
import RaggedTrajectory.Compression.Zstd.Encoder
import RaggedTrajectory.Error

/-!
# When a payload is compressed

A policy names a codec, the shortest payload that is worth trying, and the ratio below which the
result is kept. What is not kept is stored as it is, so the codec of a payload is only known after
it was tried.

* `decompress_compress`: what a codec made is read back.
-/

namespace RaggedTrajectory

/-- When and how payloads are compressed. -/
structure CompressionPolicy where
  method : Codec
  /-- The length from which on compression is tried. -/
  threshold : Nat
  /-- The ratio of lengths below which a compressed payload is kept. -/
  minRatio : Binary32
  deriving DecidableEq, Repr

namespace CompressionPolicy

/-- The policy of each codec. -/
def ofCodec : Codec → CompressionPolicy
  | .stored => ⟨.stored, 2 ^ 64 - 1, ⟨0⟩⟩
  | .lz4 => ⟨.lz4, 512, ⟨0x3F666666⟩⟩
  | .zstd => ⟨.zstd, 1024, ⟨0x3F59999A⟩⟩

end CompressionPolicy

namespace Codec

/-- The data in the form of a codec. -/
def compress (data : Bytes) : Codec → Bytes
  | stored => data
  | lz4 => Lz4.compress data
  | zstd => Zstd.compress data

/-- The data that is stored in the form of a codec and has a given length. -/
def decompress (bytes : Bytes) (codec : Codec) (length : Nat) : Except Error Bytes := do
  let data ←
    match codec with
    | stored => pure bytes
    | lz4 =>
      match Lz4.decode length bytes with
      | some data => pure data
      | none => throw (.corrupt .undecodableLz4)
    | zstd =>
      match Zstd.decode length bytes with
      | some data => pure data
      | none => throw (.corrupt .undecodableZstd)
  if data.length ≠ length then throw (.corrupt (.decompressedLength data.length length))
  return data

theorem decompress_compress (data : Bytes) (codec : Codec) :
    decompress (compress data codec) codec data.length = .ok data := by
  cases codec <;> simp [compress, decompress, Lz4.decode_compress, Zstd.decode_compress] <;> rfl

end Codec

namespace CompressionPolicy

/-- Whether a compressed payload is kept. -/
def keeps (policy : CompressionPolicy) (compressed length : Nat) : Bool :=
  (Binary32.ratio compressed length).lt policy.minRatio

/-- The stored form of a payload, and its codec. -/
def store (policy : CompressionPolicy) (data : Bytes) : Bytes × Codec :=
  if data.length < policy.threshold ∨ policy.method = .stored then (data, .stored)
  else
    let compressed := policy.method.compress data
    if policy.keeps compressed.length data.length then (compressed, policy.method)
    else (data, .stored)

end CompressionPolicy

end RaggedTrajectory
