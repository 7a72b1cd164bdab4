import MarkupTransfer.SortedSet
/-!
# Word alignments

An alignment says which words of a source sentence were translated by which words of the target
sentence, as a set of pairs of word indices.

* `mem_ofPairs`: an alignment has just the pairs it was made of.
-/

namespace MarkupTransfer

/-- Pairs are compared by their first component, then by their second. -/
abbrev comparePairs : Nat × Nat → Nat × Nat → Ordering :=
  compareLex (compareOn Prod.fst) (compareOn Prod.snd)

instance : Std.LawfulEqCmp comparePairs where
  eq_of_compare {a b} h := by
    obtain ⟨h₁, h₂⟩ : compare a.1 b.1 = .eq ∧ compare a.2 b.2 = .eq := by
      simpa [comparePairs, compareLex, compareOn, Ordering.then_eq_eq] using h
    exact Prod.ext (Std.LawfulEqCmp.eq_of_compare h₁) (Std.LawfulEqCmp.eq_of_compare h₂)

/-- Pairs of a source word and a target word, by index. -/
structure Alignment where
  points : SortedSet (Nat × Nat) comparePairs
  deriving DecidableEq

namespace Alignment

/-- The alignment without pairs. -/
def empty : Alignment := ⟨.empty⟩

/-- The alignment of a list of pairs, in any order. -/
def ofPairs (pairs : List (Nat × Nat)) : Alignment := ⟨.ofList pairs⟩

/-- The pairs in ascending order. -/
def toList (a : Alignment) : List (Nat × Nat) := a.points.toList

theorem mem_ofPairs {p : Nat × Nat} {pairs : List (Nat × Nat)} :
    p ∈ (ofPairs pairs).toList ↔ p ∈ pairs :=
  SortedSet.mem_ofList

/-- Number of pairs. -/
def size (a : Alignment) : Nat := a.toList.length

/-- Whether there are no pairs. -/
def isEmpty (a : Alignment) : Bool := a.toList.isEmpty

/-- Whether two words are aligned. -/
def contains (a : Alignment) (source target : Nat) : Bool := a.toList.contains (source, target)

/-- The target words aligned to a source word, in ascending order. -/
def targetsOf (a : Alignment) (source : Nat) : List Nat :=
  (a.toList.filter fun p => p.1 == source).map Prod.snd

/-- The largest source index and the largest target index. -/
def maxIndices? (a : Alignment) : Option (Nat × Nat) :=
  (a.toList.map Prod.fst).max?.bind fun s => (a.toList.map Prod.snd).max?.map fun t => (s, t)

end Alignment

end MarkupTransfer
