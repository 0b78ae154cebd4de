import RaggedTrajectory.Compression.Zstd.BitWriter
import RaggedTrajectory.Compression.Zstd.Fse

/-!
# Distributions of counts

Symbols that are to be coded are counted, and the states of a table are shared out in proportion to
the counts, so that every symbol that comes up has a state. The shares are rounded one by one; what
they are short of, or too much, is settled with the symbol that has most.
-/

namespace RaggedTrajectory.Zstd

/-- How often each symbol comes up, up to the last one that does. All symbols are less than
`bound`. -/
def countSymbols (bound : Nat) (symbols : List Nat) : List Nat :=
  let counts := symbols.foldl (fun counts symbol => counts.modify symbol (· + 1))
    (Array.replicate bound 0)
  (counts.toList.reverse.dropWhile (· = 0)).reverse

/-- The place of the first greatest number. -/
def greatestPlace (numbers : List Int) : Nat :=
  (numbers.zipIdx.foldl (fun best (number, place) => if best.1 < number then (number, place)
    else best) ((0 : Int), 0)).2

namespace Distribution

/-- A logarithm of the number of states that suits `total` symbols, of which `highest` is the
highest: at most `limit`, less by `spare` bits than the number of symbols has, but enough to tell
the symbols apart. -/
def suitableLog (limit spare total highest : Nat) : Nat :=
  let least := min (total.log2 + 1) (highest.log2 + 2)
  min 12 (max 5 (max least (min limit ((total - 1).log2 - spare))))

/-- For small shares, how large a fraction must be for the share to be rounded up, in units of
`2 ^ (-20)`. -/
def roundingThresholds : Array Nat :=
  #[0, 473195, 504333, 520860, 550000, 700000, 750000, 830000]

/-- The rounded share of a symbol. -/
def share (log total count : Nat) : Nat :=
  let unit := 2 ^ (62 - log)
  let exact := count * (2 ^ 62 / total)
  let whole := exact / unit
  match roundingThresholds[whole]? with
  | some threshold =>
    if unit / 2 ^ 20 * threshold < exact - whole * unit then whole + 1 else whole
  | none => whole

/-- Takes states away from the symbol that has most, one after another. -/
def takeAway : (excess : Nat) → List Int → List Int
  | 0, shares => shares
  | excess + 1, shares => takeAway excess (shares.modify (greatestPlace shares) (· - 1))

/-- The shares when `surplus` more states are given to the symbol that has most. If it would lose
half of its states, they are taken from all that have most in turn. -/
def settle (surplus : Int) (shares : List Int) : List Int :=
  let place := greatestPlace shares
  if (shares.getD place 0) / 2 ≤ -surplus then takeAway surplus.natAbs shares
  else shares.modify place (· + surplus)

/-- The distribution for counts. A symbol that comes up less often than one state stands for has
one state, which counts as rare if `markRare` says so. -/
def ofCounts (log : Nat) (markRare : Bool) (counts : List Nat) : Distribution :=
  let total := sumOf counts
  let shares : List Int := counts.map fun count =>
    if count = 0 then 0
    else if count ≤ total / 2 ^ log then (if markRare then -1 else 1)
    else share log total count
  ⟨log, settle (2 ^ log - sumOf (shares.map Int.natAbs)) shares⟩

/-- Writes a count, given how many states are left. Small values take one bit less. -/
def putCount (remaining : Nat) (count : Int) (writer : BitWriter) : BitWriter :=
  let bits := remaining.log2
  let threshold := 2 ^ bits
  let spare := 2 * threshold - 1 - remaining
  let value := (count + 1).toNat
  if value < spare then writer.put value bits
  else writer.put (if threshold ≤ value then value + spare else value) (bits + 1)

/-- Writes how many symbols without states follow one. -/
def putZeros : (zeros : Nat) → BitWriter → BitWriter
  | zeros + 3, writer => putZeros zeros (writer.put 3 2)
  | zeros, writer => writer.put zeros 2

/-- Writes counts until all states are given away. `remaining` is one more than the number of
states that are left, and `zeros` counts the symbols without states since one was written, if the
last one that was written has none. -/
def putCounts : (remaining : Nat) → (zeros : Option Nat) → List Int → BitWriter → BitWriter
  | _, _, [], writer => writer
  | remaining, zeros, count :: rest, writer =>
    if remaining ≤ 1 then writer
    else
      match zeros, decide (count = 0) with
      | some zeros, true => putCounts remaining (some (zeros + 1)) rest writer
      | some zeros, false =>
        putCounts (remaining - count.natAbs) none rest
          (putCount remaining count (putZeros zeros writer))
      | none, isZero =>
        putCounts (remaining - count.natAbs) (if isZero then some 0 else none) rest
          (putCount remaining count writer)

/-- The description of a distribution. -/
def describe (distribution : Distribution) : Bytes :=
  (putCounts (2 ^ distribution.log + 1) none distribution.counts
    (BitWriter.empty.put (distribution.log - 5) 4)).finish

end Distribution

end RaggedTrajectory.Zstd
