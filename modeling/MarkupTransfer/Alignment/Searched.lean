import Mathlib.Data.List.Defs
import MarkupTransfer.Alignment
import MarkupTransfer.Bisection
/-!
# Alignments as rows that are searched

An alignment can be kept as a row of pairs. The row is sorted when it is made, and after that pairs
are looked for by halves.
-/

namespace MarkupTransfer.Alignment

/-- Pairs in the order in which they are kept. -/
structure Row where
  pairs : List (Nat × Nat)
  deriving DecidableEq, Repr

namespace Row

/-- The row of a list of pairs: sorted, and without the pairs that are equal to the one in front of
them. -/
def ofPairs (pairs : List (Nat × Nat)) : Row :=
  ⟨(pairs.mergeSort fun p q => (comparePairs p q).isLE).destutter (· ≠ ·)⟩

/-- Whether two words are aligned: whether their pair stands where it would have to stand. -/
def contains (r : Row) (source target : Nat) : Bool :=
  r.pairs[cutByHalves (fun p => (comparePairs p (source, target)).isLT) r.pairs]? ==
    some (source, target)

/-- The target words of the pairs from the first one that does not come before a source word, as
long as they are of this word. -/
def targetsOf (r : Row) (source : Nat) : List Nat :=
  ((r.pairs.drop (cutByHalves (fun p => decide (p.1 < source)) r.pairs)).takeWhile
    fun p => p.1 == source).map Prod.snd

/-- The source word of the last pair, and the largest target word. -/
def maxIndices? (r : Row) : Option (Nat × Nat) :=
  r.pairs.getLast?.bind fun p => (r.pairs.map Prod.snd).max?.map fun t => (p.1, t)

end Row

end MarkupTransfer.Alignment
