import RaggedTrajectory.Bytes

/-!
# Lengths of code words

The symbols that come up are the leaves of a tree in which the two lightest trees are joined again
and again; the depth of a leaf is the length of its code word. Depths beyond a limit are cut, and
what the cut words lack is made good by longer words elsewhere.

Symbols are given by their counts, the greatest first, and lengths come in the same order.
-/

namespace RaggedTrajectory.Zstd

/-- A tree of symbols, which are given by their ranks. -/
inductive CodeTree where
  | leaf (rank : Nat)
  | node (left right : CodeTree)

/-- The lengths of the code words of a tree: each leaf sets the one of its rank. -/
def CodeTree.depths : CodeTree → (depth : Nat) → Array Nat → Array Nat
  | leaf rank, depth, lengths => lengths.setIfInBounds rank depth
  | node left right, depth, lengths => right.depths (depth + 1) (left.depths (depth + 1) lengths)

/-- A tree with the sum of the counts of its leaves. -/
structure WeighedTree where
  weight : Nat
  tree : CodeTree

namespace CodeLengths

/-- The lightest tree of two rows, each with its lightest tree first. Of trees that weigh the same,
the one of the second row is taken. -/
def takeLightest : (leaves joined : List WeighedTree) →
    Option (WeighedTree × List WeighedTree × List WeighedTree)
  | [], [] => none
  | leaf :: leaves, [] => some (leaf, leaves, [])
  | [], tree :: joined => some (tree, [], joined)
  | leaf :: leaves, tree :: joined =>
    if leaf.weight < tree.weight then some (leaf, leaves, tree :: joined)
    else some (tree, leaf :: leaves, joined)

/-- Joins the two lightest trees until one is left. -/
def join : (fuel : Nat) → (leaves joined : List WeighedTree) → Option CodeTree
  | 0, _, _ => none
  | fuel + 1, leaves, joined =>
    match takeLightest leaves joined with
    | none => none
    | some (first, leaves, joined) =>
      match takeLightest leaves joined with
      | none => some first.tree
      | some (second, leaves, joined) =>
        join fuel leaves (joined ++ [⟨first.weight + second.weight, .node first.tree second.tree⟩])

/-- Lengths without a limit. -/
def unlimited (counts : List Nat) : Array Nat :=
  let leaves := (counts.zipIdx.map fun (count, rank) => WeighedTree.mk count (.leaf rank)).reverse
  let lengths := Array.replicate counts.length 0
  match join (leaves.length + 1) leaves [] with
  | some tree => tree.depths 0 lengths
  | none => lengths

/-- The last rank with a word of the length, that is, the rarest of its symbols. -/
def lastWith (lengths : Array Nat) (length : Nat) : Option Nat :=
  (lengths.toList.zipIdx.reverse.find? (·.1 = length)).map Prod.snd

/-- How many bits shorter than the limit the word is that is to be made longer: as much as the debt
asks for, unless two words of the next length are the cheaper choice. -/
def chooseGain (counts lengths : Array Nat) (limit : Nat) : (gain : Nat) → Nat
  | 0 => 1
  | 1 => 1
  | gain + 2 =>
    match lastWith lengths (limit - (gain + 2)), lastWith lengths (limit - (gain + 1)) with
    | none, _ => chooseGain counts lengths limit (gain + 1)
    | some _, none => gain + 2
    | some high, some low =>
      if counts.getD high 0 ≤ 2 * counts.getD low 0 then gain + 2
      else chooseGain counts lengths limit (gain + 1)

/-- The gain itself, or the next one for which there is a word. -/
def nextGain (lengths : Array Nat) (limit : Nat) : (fuel gain : Nat) → Option (Nat × Nat)
  | 0, _ => none
  | fuel + 1, gain =>
    match lastWith lengths (limit - gain) with
    | some rank => some (gain, rank)
    | none => nextGain lengths limit fuel (gain + 1)

/-- Makes words longer until the debt is paid. What was paid too much is returned. -/
def deepen (counts : Array Nat) (limit : Nat) : (fuel debt : Nat) → Array Nat → Nat × Array Nat
  | 0, _, lengths => (0, lengths)
  | _, 0, lengths => (0, lengths)
  | fuel + 1, debt + 1, lengths =>
    match nextGain lengths limit limit
        (chooseGain counts lengths limit ((debt + 1).log2 + 1)) with
    | none => (0, lengths)
    | some (gain, rank) =>
      let lengths := lengths.modify rank (· + 1)
      let paid := 2 ^ (gain - 1)
      if debt + 1 ≤ paid then (paid - (debt + 1), lengths)
      else deepen counts limit fuel (debt + 1 - paid) lengths

/-- Makes longest words one bit shorter, those of the most frequent symbols first. -/
def giveBack (limit : Nat) : (credit : Nat) → Array Nat → Array Nat
  | 0, lengths => lengths
  | credit + 1, lengths =>
    match lengths.toList.findIdx? (· = limit) with
    | some rank => giveBack limit credit (lengths.modify rank (· - 1))
    | none => lengths

/-- Lengths of at most `limit` bits. -/
def limited (limit : Nat) (counts : List Nat) : List Nat :=
  let lengths := (unlimited counts).map (min limit)
  let debt := sumOf (lengths.toList.map fun length => 2 ^ (limit - length)) - 2 ^ limit
  let (credit, lengths) := deepen counts.toArray limit (debt + 1) debt lengths
  (giveBack limit credit lengths).toList

end CodeLengths

end RaggedTrajectory.Zstd
