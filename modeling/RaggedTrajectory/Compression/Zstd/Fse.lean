import RaggedTrajectory.Compression.Zstd.Bits

/-!
# Tables of finite-state entropy

A table gives each state a symbol, and the number of bits and the base from which the next state is
made. It is built from a distribution: how many states each symbol has, where `-1` stands for a
symbol that is rarer than one state.
-/

namespace RaggedTrajectory.Zstd

/-- How many states each symbol has, and the logarithm of the number of states. -/
structure Distribution where
  log : Nat
  counts : List Int

/-- What a state stands for. -/
structure FseState where
  symbol : Nat
  bits : Nat
  base : Nat
  deriving Inhabited

/-- A table of states. -/
structure FseTable where
  log : Nat
  states : Array FseState

namespace FseTable

/-- The places of a table in the order in which they are dealt out, the highest ones apart. -/
def dealOrder (size high : Nat) : (count position : Nat) → List Nat
  | 0, _ => []
  | count + 1, position =>
    let next := (position + size / 2 + size / 8 + 3) % size
    if position < high then position :: dealOrder size high count next
    else dealOrder size high count next

/-- The symbols of a list of counts with a number for each. -/
def numbered (counts : List Int) : List (Nat × Int) :=
  counts.zipIdx.map fun (count, symbol) => (symbol, count)

/-- The symbol at each place. Rare symbols take the highest places, from the end; the others are
dealt out, each as often as it has states. -/
def layOut (distribution : Distribution) : Array Nat :=
  let size := 2 ^ distribution.log
  let rare := (numbered distribution.counts).filterMap fun (symbol, count) =>
    if count = -1 then some symbol else none
  let common := (numbered distribution.counts).flatMap fun (symbol, count) =>
    List.replicate count.toNat symbol
  let blank := Array.replicate size 0
  let marked := (rare.zipIdx.foldl
    (fun table (symbol, i) => table.setIfInBounds (size - 1 - i) symbol) blank)
  let places := dealOrder size (size - rare.length) size 0
  (places.zip common).foldl (fun table (place, symbol) => table.setIfInBounds place symbol) marked

/-- The states in the order of their places; `next` counts the states of each symbol from the
number it has in the distribution. -/
def fillStates (log : Nat) (next : Array Nat) : List Nat → List FseState
  | [] => []
  | symbol :: rest =>
    let x := next.getD symbol 1
    let bits := log - x.log2
    ⟨symbol, bits, x * 2 ^ bits - 2 ^ log⟩ ::
      fillStates log (next.setIfInBounds symbol (x + 1)) rest

/-- The table of a distribution. -/
def ofDistribution (distribution : Distribution) : FseTable :=
  let next := (distribution.counts.map fun count => if count = -1 then 1 else count.toNat).toArray
  ⟨distribution.log, (fillStates distribution.log next (layOut distribution).toList).toArray⟩

/-- The table with one state, which needs no bits. -/
def single (symbol : Nat) : FseTable := ⟨0, #[⟨symbol, 0, 0⟩]⟩

/-- The first state of a stream. -/
def start? (table : FseTable) (stream : BackwardBits) : Option (Nat × BackwardBits) :=
  stream.read? table.log

/-- What a state stands for. -/
def state (table : FseTable) (state : Nat) : FseState := table.states.getD state default

/-- The state after a given one. -/
def next? (table : FseTable) (state : Nat) (stream : BackwardBits) :
    Option (Nat × BackwardBits) :=
  let entry := table.state state
  (stream.read? entry.bits).map fun (low, stream) => (entry.base + low, stream)

end FseTable

namespace Distribution

/-- The largest logarithm that a description can have. -/
def maxLog : Nat := 15

/-- How many symbols without states follow one: groups of two bits, up to a group that is not
full. -/
def readZeros : (fuel : Nat) → ForwardBits → Nat × ForwardBits
  | 0, stream => (0, stream)
  | fuel + 1, stream =>
    let group := stream.peek 2
    if group = 3 then
      let (more, stream) := readZeros fuel (stream.skip 2)
      (more + 3, stream)
    else (group, stream.skip 2)

/-- The next count, given how many states are left. Small values take one bit less. -/
def readCount (remaining : Nat) (stream : ForwardBits) : Int × ForwardBits :=
  let bits := remaining.log2
  let threshold := 2 ^ bits
  let spare := 2 * threshold - 1 - remaining
  let low := stream.peek bits
  if low < spare then ((low : Int) - 1, stream.skip bits)
  else
    let value := stream.peek (bits + 1)
    let value := if threshold ≤ value then value - spare else value
    ((value : Int) - 1, stream.skip (bits + 1))

/-- Reads counts until all states are given away. `remaining` is one more than the number of states
that are left. -/
def readCounts (maxSymbols : Nat) :
    (fuel remaining : Nat) → ForwardBits → List Int → Option (List Int × ForwardBits)
  | 0, _, _, _ => none
  | fuel + 1, remaining, stream, counts =>
    let (count, stream) := readCount remaining stream
    if remaining ≤ count.natAbs then none
    else
      let remaining := remaining - count.natAbs
      let counts := counts ++ [count]
      if remaining = 1 then some (counts, stream)
      else if count = 0 then
        let (zeros, stream) := readZeros maxSymbols stream
        let counts := counts ++ List.replicate zeros 0
        if maxSymbols ≤ counts.length then none
        else readCounts maxSymbols fuel remaining stream counts
      else if maxSymbols ≤ counts.length then none
      else readCounts maxSymbols fuel remaining stream counts

/-- The distribution described at the start of the input, of at most `maxSymbols` symbols and at
most `2 ^ limit` states, and the number of bytes of the description. -/
def read? (maxSymbols limit : Nat) (input : Bytes) : Option (Distribution × Nat) :=
  let stream : ForwardBits := ⟨(input.take 512).toArray, 0⟩
  let log := stream.peek 4 + 5
  if maxLog < log ∨ limit < log ∨ input = [] then none
  else
    match readCounts maxSymbols (maxSymbols + 1) (2 ^ log + 1) (stream.skip 4) [] with
    | none => none
    | some (counts, stream) =>
      if input.length < stream.bytesUsed then none else some (⟨log, counts⟩, stream.bytesUsed)

end Distribution

end RaggedTrajectory.Zstd
