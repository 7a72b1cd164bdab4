import MarkupTransfer.Alignment
/-!
# Pairs in order

The pairs of an alignment are kept in ascending order, first by their source words and then by their
target words.

* `comparePairs_eq_lt_iff`: which of two pairs comes first.
* `Alignment.fst_lt_of_mem_behind`: of the pairs of one target word, those further back have later
  source words.
-/

namespace MarkupTransfer

theorem comparePairs_eq_lt_iff {p q : Nat × Nat} :
    comparePairs p q = .lt ↔ p.1 < q.1 ∨ p.1 = q.1 ∧ p.2 < q.2 := by
  simp [comparePairs, compareLex, compareOn, Ordering.then_eq_lt, Nat.compare_eq_lt]

namespace Alignment

variable {a : Alignment} {p q : Nat × Nat}

theorem contains_iff {s t : Nat} : a.contains s t = true ↔ (s, t) ∈ a.toList := by
  simp [contains]

/-- Of the pairs of one target word, those further back have later source words. -/
theorem fst_lt_of_mem_behind {pairs front back : List (Nat × Nat)} (hsub : pairs.Sublist a.toList)
    (hpairs : pairs = front ++ p :: back) (hq : q ∈ back) (htarget : p.2 = q.2) : p.1 < q.1 := by
  have hascending : pairs.Pairwise fun p q => comparePairs p q = .lt :=
    a.points.ascending.sublist hsub
  rw [hpairs, List.pairwise_append, List.pairwise_cons] at hascending
  have hlt := comparePairs_eq_lt_iff.mp (hascending.2.1.1 q hq)
  omega

end Alignment

end MarkupTransfer
