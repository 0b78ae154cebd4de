import RaggedTrajectory.Compression.Zstd.BitWriter
import RaggedTrajectory.Compression.Zstd.Fse

/-!
# Coding with a table of states

A table is read from one state to the next, so symbols are coded from the last one to the first.
Each state of a symbol leads to a range of states, and the ranges of a symbol do not overlap: the
state before a given one is the state of the symbol whose range holds it, and the bits that are
written tell which state of the range follows.
-/

namespace RaggedTrajectory.Zstd

/-- A table turned round. -/
structure StateCoder where
  log : Nat
  /-- The states of each symbol with their places, in the order of the places. -/
  states : Array (List (Nat × FseState))

/-- The states of a table by their symbols, all of which are less than `bound`. -/
def FseTable.coder (bound : Nat) (table : FseTable) : StateCoder where
  log := table.log
  states := table.states.zipIdx.foldr
    (fun (state, place) states => states.modify state.symbol ((place, state) :: ·))
    (Array.replicate bound [])

namespace StateCoder

/-- The states of a symbol. -/
def statesOf (coder : StateCoder) (symbol : Nat) : List (Nat × FseState) :=
  coder.states.getD symbol []

/-- The state for the last symbol. -/
def final (coder : StateCoder) (symbol : Nat) : Nat :=
  ((coder.statesOf symbol).head?.map Prod.fst).getD 0

/-- The state of a symbol from which `next` is reached. The bits that lead there are written. -/
def step (coder : StateCoder) (symbol next : Nat) (writer : BitWriter) : Nat × BitWriter :=
  let reaches : Nat × FseState → Bool := fun (_, state) =>
    state.base ≤ next ∧ next < state.base + 2 ^ state.bits
  match (coder.statesOf symbol).find? reaches with
  | some (place, state) => (place, writer.put (next - state.base) state.bits)
  | none => (next, writer)

/-- Writes the state with which reading starts. -/
def putState (coder : StateCoder) (state : Nat) (writer : BitWriter) : BitWriter :=
  writer.put state coder.log

/-- Codes symbols, the last one first, with two states that take turns. -/
def putAlternately (coder : StateCoder) : List Nat → (state other : Nat) → BitWriter → BitWriter
  | [], state, other, writer => coder.putState other (coder.putState state writer)
  | symbol :: rest, state, other, writer =>
    let (state, writer) := coder.step symbol state writer
    putAlternately coder rest other state writer

end StateCoder

end RaggedTrajectory.Zstd
