import RaggedTrajectory.Bytes

/-!
# Copies from the output

Both codecs describe data by literal bytes and by copies of what was put out before. A copy may
reach into itself, so it is made byte by byte.
-/

namespace RaggedTrajectory.Compression

/-- The first `count` bytes and the rest, if there are as many. -/
def split? : (count : Nat) → Bytes → Option (Bytes × Bytes)
  | 0, rest => some ([], rest)
  | _ + 1, [] => none
  | count + 1, b :: rest => (split? count rest).map fun (taken, rest) => (b :: taken, rest)

/-- The output followed by more bytes. -/
def pushAll (output : Array UInt8) (bytes : Bytes) : Array UInt8 :=
  bytes.foldl Array.push output

/-- The output followed by `length` bytes, each of them the one `offset` places before. The offset
is positive and at most the length of the output. -/
def copyBack (offset : Nat) : (length : Nat) → Array UInt8 → Array UInt8
  | 0, output => output
  | length + 1, output =>
    copyBack offset length (output.push (output.getD (output.size - offset) 0))

/-- The length of the longest common part of the input at two places, up to a limit. -/
def commonLength (input : Array UInt8) (a b : Nat) : (limit : Nat) → Nat
  | 0 => 0
  | limit + 1 =>
    if input.getD a 0 = input.getD b 0 then commonLength input (a + 1) (b + 1) limit + 1 else 0

/-- The length of the longest common part of the input before two places, up to a limit. -/
def commonBefore (input : Array UInt8) (a b : Nat) : (limit : Nat) → Nat
  | 0 => 0
  | limit + 1 =>
    if input.getD (a - 1) 0 = input.getD (b - 1) 0 then
      commonBefore input (a - 1) (b - 1) limit + 1
    else 0

/-- The bytes of the input from one place to another. -/
def between (input : Array UInt8) (start stop : Nat) : Bytes := (input.extract start stop).toList

theorem split?_append (taken rest : Bytes) :
    split? taken.length (taken ++ rest) = some (taken, rest) := by
  induction taken with
  | nil => rfl
  | cons b taken ih => simp [split?, ih]

theorem toList_pushAll (output : Array UInt8) (bytes : Bytes) :
    (pushAll output bytes).toList = output.toList ++ bytes := by
  induction bytes generalizing output with
  | nil => simp [pushAll]
  | cons b bytes ih => simp [pushAll]

end RaggedTrajectory.Compression
