import RaggedTrajectory.Bytes

/-!
# CRC-32

The reflected cyclic redundancy check with generator `0xEDB88320`, as a left fold of one step per
byte. The register starts at all ones and is complemented at the end.
-/

namespace RaggedTrajectory.Crc32

/-- The generator polynomial, least significant coefficient first, without its leading term. -/
def generator : UInt32 := 0xEDB88320

/-- Divides out one bit: the register moves down by one, and the generator is subtracted if the bit
that leaves is set. -/
def shift (register : UInt32) : UInt32 :=
  if register &&& 1 = 1 then (register >>> 1) ^^^ generator else register >>> 1

/-- Takes one byte into the register. -/
def step (register : UInt32) (byte : UInt8) : UInt32 :=
  let mixed := register ^^^ byte.toUInt32
  shift (shift (shift (shift (shift (shift (shift (shift mixed)))))))

/-- The checksum of a byte string. -/
def checksum (bytes : Bytes) : UInt32 :=
  bytes.foldl step 0xFFFFFFFF ^^^ 0xFFFFFFFF

end RaggedTrajectory.Crc32
