import Mathlib.Data.List.Destutter
import Mathlib.Order.Bounds.Basic
import MarkupTransfer.Alignment.Searched
import MarkupTransfer.Proofs.Projection.Places
import MarkupTransfer.Proofs.Alignment
/-!
# Alignments as sets of pairs

The pairs of an alignment stand in strictly ascending order. So each of them stands there once,
those of one source word stand together with their target words in order, and the last pair has the
last source word; and a row of them can be searched by halves. Nothing else is left of the list that
an alignment was made of.

* `pairwise_toList`, `toList_ofPairs_perm`: the pairs of an alignment.
* `maxIndices?_eq_some_iff`: its largest indices.
* `Row.Answers`: a row tells what an alignment tells; `answers_row`: the row of its pairs does;
  `Row.ofPairs_eq`: which is what sorting makes.
* `ofPairs_is_set`: an alignment behaves as the set of the pairs that it was made of.
-/

namespace MarkupTransfer.Alignment

variable {a : Alignment} {pairs : List (Nat × Nat)}

/-! ## Pairs -/

theorem pairwise_toList (a : Alignment) :
    a.toList.Pairwise fun p q => p.1 < q.1 ∨ p.1 = q.1 ∧ p.2 < q.2 :=
  a.points.ascending.imp fun h => comparePairs_eq_lt_iff.mp h

theorem nodup_toList (a : Alignment) : a.toList.Nodup := by
  refine a.pairwise_toList.imp fun h heq => ?_
  subst heq
  omega

/-- **An alignment has each pair of a list once.** -/
theorem toList_ofPairs_perm (pairs : List (Nat × Nat)) : (ofPairs pairs).toList.Perm pairs.dedup :=
  (List.perm_ext_iff_of_nodup (nodup_toList _) pairs.nodup_dedup).mpr fun p => by
    rw [mem_ofPairs, List.mem_dedup]

theorem ofPairs_eq_iff {other : List (Nat × Nat)} :
    ofPairs other = ofPairs pairs ↔ ∀ p, p ∈ other ↔ p ∈ pairs := by
  constructor
  · intro heq p
    rw [← mem_ofPairs, heq, mem_ofPairs]
  · intro h
    refine congrArg mk (SortedSet.ext_toList fun p => ?_)
    exact mem_ofPairs.trans ((h p).trans mem_ofPairs.symm)

/-- **The targets of a word are in strictly ascending order.** -/
theorem pairwise_targetsOf (a : Alignment) (source : Nat) :
    (a.targetsOf source).Pairwise (· < ·) := by
  refine List.pairwise_map.mpr (List.pairwise_filter.mpr (a.pairwise_toList.imp ?_))
  intro p q hpq hp hq
  have hp : p.1 = source := beq_iff_eq.mp hp
  have hq : q.1 = source := beq_iff_eq.mp hq
  omega

theorem maxIndices?_eq_none_iff : a.maxIndices? = none ↔ a.toList = [] := by
  rw [maxIndices?]
  cases a.toList with
  | nil => simp
  | cons p rest => simp

/-- **The largest indices**, each among the pairs on its own. -/
theorem maxIndices?_eq_some_iff {s t : Nat} : a.maxIndices? = some (s, t) ↔
    IsGreatest {s | ∃ t, (s, t) ∈ a.toList} s ∧ IsGreatest {t | ∃ s, (s, t) ∈ a.toList} t := by
  simp [maxIndices?, Option.bind_eq_some_iff, List.max?_eq_some_iff, IsGreatest, upperBounds]

/-! ## Rows -/

/-- A row tells what an alignment tells. -/
structure Row.Answers (r : Row) (a : Alignment) : Prop where
  pairs_eq : r.pairs = a.toList
  contains_eq : ∀ s t, r.contains s t = a.contains s t
  targetsOf_eq : ∀ s, r.targetsOf s = a.targetsOf s
  maxIndices?_eq : r.maxIndices? = a.maxIndices?

theorem contains_row (a : Alignment) (s t : Nat) :
    (Row.mk a.toList).contains s t = a.contains s t := by
  have hbefore : a.toList.Pairwise fun p q =>
      (comparePairs q (s, t)).isLT = true → (comparePairs p (s, t)).isLT = true := by
    refine a.points.ascending.imp fun hpq hq => ?_
    rw [Ordering.isLT_iff_eq_lt] at hq ⊢
    exact Std.TransCmp.lt_trans hpq hq
  have hcut := eq_false_of_mem_dropWhile hbefore
  rw [Row.contains, getElem?_cutByHalves hcut, Bool.eq_iff_iff, beq_iff_eq, contains_iff]
  refine ⟨fun hhead => (List.dropWhile_sublist _).subset (List.mem_of_mem_head? hhead),
    fun hmem => ?_⟩
  obtain ⟨front, back, hsplit⟩ := List.append_of_mem hmem
  have hascending := a.pairwise_toList
  rw [hsplit, List.pairwise_append] at hascending
  have hfront : ∀ p ∈ front, (comparePairs p (s, t)).isLT = true := fun p hp =>
    Ordering.isLT_iff_eq_lt.mpr
      (comparePairs_eq_lt_iff.mpr (hascending.2.2 p hp _ (List.mem_cons_self ..)))
  have hself : comparePairs (s, t) (s, t) = .eq := Std.ReflCmp.compare_self
  rw [hsplit, List.dropWhile_append_of_pos hfront, List.dropWhile_cons_of_neg (by simp [hself])]
  rfl

/-- Behind the pairs of earlier words the pairs of a word come first. -/
theorem targetsOf_row (a : Alignment) (s : Nat) :
    (Row.mk a.toList).targetsOf s = a.targetsOf s := by
  have hbefore : a.toList.Pairwise fun p q =>
      decide (q.1 < s) = true → decide (p.1 < s) = true := by
    refine a.pairwise_toList.imp fun hpq hq => ?_
    rw [decide_eq_true_eq] at hq ⊢
    omega
  have hcut := eq_false_of_mem_dropWhile hbefore
  have hapart : ∀ p ∈ a.toList, decide (p.1 < s) = true → (p.1 == s) = false := fun p _ hlt =>
    beq_eq_false_iff_ne.mpr (Nat.ne_of_lt (of_decide_eq_true hlt))
  have hbehind : (a.toList.dropWhile fun p => decide (p.1 < s)).Pairwise
      fun p q => (q.1 == s) = true → (p.1 == s) = true := by
    refine (a.pairwise_toList.sublist (List.dropWhile_sublist _)).imp_of_mem fun hp _ hpq hq => ?_
    have hge := of_decide_eq_false (hcut _ hp)
    rw [beq_iff_eq] at hq ⊢
    omega
  rw [Row.targetsOf, drop_cutByHalves hcut, takeWhile_dropWhile_eq_filter hapart hbehind, targetsOf]

/-- The last pair has the last source word. -/
theorem max?_sources (a : Alignment) :
    (a.toList.map Prod.fst).max? = a.toList.getLast?.map Prod.fst := by
  cases hlast : a.toList.getLast? with
  | none => simp [List.getLast?_eq_none_iff.mp hlast]
  | some p =>
    obtain ⟨front, hsplit⟩ := List.getLast?_eq_some_iff.mp hlast
    have hascending := a.pairwise_toList
    rw [hsplit, List.pairwise_append] at hascending
    rw [Option.map_some, List.max?_eq_some_iff, hsplit]
    refine ⟨by simp, List.forall_mem_map.mpr fun q hq => ?_⟩
    rcases List.mem_append.mp hq with hq | hq
    · have := hascending.2.2 q hq p (List.mem_singleton_self p)
      omega
    · exact Nat.le_of_eq (congrArg Prod.fst (List.mem_singleton.mp hq))

theorem maxIndices?_row (a : Alignment) : (Row.mk a.toList).maxIndices? = a.maxIndices? := by
  rw [Row.maxIndices?, maxIndices?, max?_sources, Option.bind_map]
  rfl

/-- **A row of pairs in order tells what their alignment tells.** -/
theorem answers_row (a : Alignment) : (Row.mk a.toList).Answers a :=
  ⟨rfl, contains_row a, targetsOf_row a, maxIndices?_row a⟩

theorem isLE_comparePairs_iff {p q : Nat × Nat} :
    (comparePairs p q).isLE = true ↔ p.1 < q.1 ∨ p.1 = q.1 ∧ p.2 ≤ q.2 := by
  rw [Ordering.isLE_iff_eq_lt_or_eq_eq, comparePairs_eq_lt_iff, Std.LawfulEqCmp.compare_eq_iff_eq,
    Prod.ext_iff]
  omega

/-- **Sorting the pairs of a list and dropping repeated ones** leaves those of its alignment. -/
theorem Row.ofPairs_eq (pairs : List (Nat × Nat)) :
    ofPairs pairs = ⟨(Alignment.ofPairs pairs).toList⟩ := by
  have hsorted : (pairs.mergeSort fun p q => (comparePairs p q).isLE).Pairwise
      fun p q => p.1 < q.1 ∨ p.1 = q.1 ∧ p.2 ≤ q.2 := by
    refine (List.pairwise_mergeSort (fun p q r hpq hqr => ?_) (fun p q => ?_) pairs).imp
      isLE_comparePairs_iff.mp
    · rw [isLE_comparePairs_iff] at hpq hqr ⊢
      omega
    · rw [Bool.or_eq_true, isLE_comparePairs_iff, isLE_comparePairs_iff]
      omega
  have hantisymm : Std.Antisymm fun p q : Nat × Nat => p.1 < q.1 ∨ p.1 = q.1 ∧ p.2 ≤ q.2 :=
    ⟨fun p q hpq hqp => Prod.ext (by omega) (by omega)⟩
  have hascending : (Alignment.ofPairs pairs).toList.Pairwise
      fun p q => p.1 < q.1 ∨ p.1 = q.1 ∧ p.2 ≤ q.2 :=
    (pairwise_toList _).imp (Or.imp_right (And.imp_right Nat.le_of_lt))
  have hperm := (List.mergeSort_perm pairs fun p q => (comparePairs p q).isLE).dedup.trans
    (toList_ofPairs_perm pairs).symm
  rw [ofPairs, hsorted.destutter_eq_dedup]
  exact congrArg mk (List.Perm.eq_of_pairwise (fun p q _ _ => hantisymm.antisymm p q)
    (hsorted.sublist (List.dedup_sublist _)) hascending hperm)

/-! ## The set of pairs -/

/-- **An alignment behaves as the set of the pairs that it was made of**, in whichever order they
were listed and however often. It has each of them once, in strictly ascending order. Two words are
aligned just if their pair is listed, the targets of a word are those it is listed with, in strictly
ascending order, and the largest indices are the largest that are listed on either side. Lists with
the same pairs make one alignment. All this is found by halves in the sorted row of the pairs. -/
theorem ofPairs_is_set (pairs : List (Nat × Nat)) :
    ((ofPairs pairs).toList.Pairwise fun p q => p.1 < q.1 ∨ p.1 = q.1 ∧ p.2 < q.2) ∧
      (ofPairs pairs).toList.Perm pairs.dedup ∧
      (∀ s t, (ofPairs pairs).contains s t = true ↔ (s, t) ∈ pairs) ∧
      (∀ s, ((ofPairs pairs).targetsOf s).Pairwise (· < ·) ∧
        ∀ t, t ∈ (ofPairs pairs).targetsOf s ↔ (s, t) ∈ pairs) ∧
      ((ofPairs pairs).maxIndices? = none ↔ pairs = []) ∧
      (∀ s t, (ofPairs pairs).maxIndices? = some (s, t) ↔
        IsGreatest {s | ∃ t, (s, t) ∈ pairs} s ∧ IsGreatest {t | ∃ s, (s, t) ∈ pairs} t) ∧
      (∀ other, ofPairs other = ofPairs pairs ↔ ∀ p, p ∈ other ↔ p ∈ pairs) ∧
      (Row.ofPairs pairs).Answers (ofPairs pairs) := by
  refine ⟨pairwise_toList _, toList_ofPairs_perm pairs, fun s t => ?_,
    fun s => ⟨pairwise_targetsOf _ s, fun t => ?_⟩, ?_, fun s t => ?_, fun other => ?_, ?_⟩
  · rw [contains_iff, mem_ofPairs]
  · rw [mem_targetsOf, mem_ofPairs]
  · rw [maxIndices?_eq_none_iff]
    simp only [List.eq_nil_iff_forall_not_mem, mem_ofPairs]
  · simp only [maxIndices?_eq_some_iff, mem_ofPairs]
  · exact ofPairs_eq_iff
  · rw [Row.ofPairs_eq]
    exact answers_row _

/-- Pairs are put in order, and a pair that is listed twice is taken once. -/
example : (ofPairs [(2, 2), (0, 1), (1, 0), (0, 1)]).toList = [(0, 1), (1, 0), (2, 2)] := by decide

end MarkupTransfer.Alignment
