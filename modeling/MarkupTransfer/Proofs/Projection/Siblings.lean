import MarkupTransfer.Proofs.Projection.Separation
import MarkupTransfer.Proofs.Rows
/-!
# Tags that keep their order

Carrying a row over moves spans past their siblings and nowhere else. Of two tags, the one in front
stays there if no span that has it alone starts behind one that has the other alone: whichever two
siblings have one of them each, sorting leaves these two as they were.

* `Placement.Orders`: placements that have one tag in front of another, wherever they are put.
* `Placement.Orders.settle`: settling keeps that.
* `orders_placements`: the placements of a row.
* `pair_sublist_projectedRow`: two tags of a source.
-/

namespace MarkupTransfer

namespace SpanForest

namespace Placement

variable {i j : Nat} {ps : List Placement}

/-- The tags of a span and of all that it holds, once its place is known. -/
def block (p : Placement) (lower upper : Nat) : List Nat := p.span.block (p.fill lower upper)

theorem indices_layOut_cons (cursor : Nat) (p : Placement) (rest : List Placement) :
    (layOut cursor (p :: rest)).indices =
      p.block (max p.start cursor) (max p.stop (max p.start cursor)) ++
        (layOut (max p.stop (max p.start cursor)) rest).indices := by
  rw [layOut, indices_node, block]

/-- Whether a tag belongs to what a placement becomes, wherever it is put. -/
def Has (p : Placement) (i : Nat) : Prop := ∀ lower upper, i ∈ p.block lower upper

theorem Has.layOut {q : Placement} (h : q.Has j) (hq : q ∈ ps) (cursor : Nat) :
    j ∈ (Placement.layOut cursor ps).indices := by
  induction ps generalizing cursor with
  | nil => cases hq
  | cons p rest ih =>
    rw [indices_layOut_cons, List.mem_append]
    rcases List.mem_cons.mp hq with rfl | hq
    · exact .inl (h _ _)
    · exact .inr (ih hq _)

/-- Whether placements have one tag in front of another one, wherever they are put: a single one has
both, or one of them has the first and a later one, which does not start before it, the second. -/
inductive Orders (i j : Nat) (ps : List Placement) : Prop
  | within {p : Placement} (mem : p ∈ ps)
      (both : ∀ lower upper, [i, j].Sublist (p.block lower upper)) : Orders i j ps
  | across {p q : Placement} (sublist : [p, q].Sublist ps) (le : p.start ≤ q.start)
      (first : p.Has i) (second : q.Has j) : Orders i j ps

namespace Orders

theorem cons (h : Orders i j ps) (p : Placement) : Orders i j (p :: ps) := by
  cases h with
  | within mem both => exact within (List.mem_cons_of_mem p mem) both
  | across sublist le first second => exact across (sublist.cons p) le first second

theorem map_clampTo (h : Orders i j ps) (lower upper : Nat) :
    Orders i j (ps.map (clampTo lower upper)) := by
  cases h with
  | within mem both => exact within (List.mem_map_of_mem mem) both
  | across sublist le first second =>
    exact across (sublist.map (clampTo lower upper)) (clamp_mono le) first second

theorem mergeSort (h : Orders i j ps) :
    Orders i j (ps.mergeSort fun a b => decide (a.start ≤ b.start)) := by
  cases h with
  | within mem both => exact within (List.mem_mergeSort.mpr mem) both
  | across sublist le first second =>
    refine across (List.pair_sublist_mergeSort (fun a b c hab hbc => ?_) (fun a b => ?_)
      (decide_eq_true le) sublist) le first second
    · exact decide_eq_true (Nat.le_trans (of_decide_eq_true hab) (of_decide_eq_true hbc))
    · simpa using Nat.le_total a.start b.start

theorem layOut (h : Orders i j ps) (cursor : Nat) :
    [i, j].Sublist (Placement.layOut cursor ps).indices := by
  induction ps generalizing cursor with
  | nil =>
    cases h with
    | within mem _ => cases mem
    | across sublist _ _ _ => cases sublist
  | cons p rest ih =>
    rw [indices_layOut_cons]
    cases h with
    | within mem both =>
      rcases List.mem_cons.mp mem with rfl | mem
      · exact (both _ _).trans (List.sublist_append_left _ _)
      · exact (ih (within mem both) _).trans (List.sublist_append_right _ _)
    | across sublist le first second =>
      cases sublist with
      | cons _ sublist =>
        exact (ih (across sublist le first second) _).trans (List.sublist_append_right _ _)
      | cons_cons _ sublist =>
        exact pair_sublist_of_mem (first _ _)
          (second.layOut (List.singleton_sublist.mp sublist) _)

/-- **Settling keeps two tags in order.** -/
theorem settle (h : Orders i j ps) (lower upper : Nat) :
    [i, j].Sublist (Placement.settle lower upper ps).indices :=
  (h.map_clampTo lower upper).mergeSort.layOut lower

end Orders

end Placement

variable {pairs : List (Nat × Nat)} {target : Span → Nat × Nat} {i j : Nat}

theorem mem_settle_placements {row : SpanForest} (hi : i ∈ row.indices) (lower upper : Nat) :
    i ∈ (Placement.settle lower upper (row.placements target)).indices :=
  ((carries_placements target row).settle lower upper).indices_perm.subset hi

/-- The placement of a span has the tags of the span, wherever it is put. -/
theorem has_placement {s : Span} {inner : SpanForest} (hi : i ∈ s.block inner) :
    Placement.Has ⟨s, (target s).1, (target s).2, fun lower upper =>
      Placement.settle lower upper (inner.placements target)⟩ i := by
  intro lower upper
  simp only [Span.block, List.mem_cons, List.mem_append] at hi
  simp only [Placement.block, Span.block, List.mem_cons, List.mem_append]
  exact hi.imp_right fun hi => hi.imp_left fun hi => mem_settle_placements hi lower upper

/-- The sibling that has a tag of a row. -/
theorem exists_placement (target : Span → Nat × Nat) {row : SpanForest}
    (hrow : row.Follows pairs) (hascending : row.indices.Pairwise (· < ·)) (hj : j ∈ row.indices) :
    ∃ q ∈ row.placements target, q.span ∈ row.spans ∧ q.start = (target q.span).1 ∧
      q.span.opening ∈ row.indices ∧ q.span.Holds j ∧ q.Has j := by
  induction row with
  | nil => cases hj
  | node s start stop inner rest _ ih =>
    have hholds := (hrow.holds hascending).1
    rw [indices_node, List.mem_append] at hj
    rcases hj with hj | hj
    · exact ⟨_, List.mem_cons_self .., by simp, rfl, by simp [indices], hholds j hj,
        has_placement hj⟩
    · obtain ⟨q, hq, hspan, hstart, hopening, hrest⟩ :=
        ih hrow.2.2 (ascending_node hascending).2 hj
      exact ⟨q, List.mem_cons_of_mem _ hq, by simp [hspan], hstart, by simp [indices, hopening],
        hrest⟩

/-- The placements of a row have two of its tags in their order if no span with the first alone
starts behind a span with the second alone. -/
theorem orders_placements {row : SpanForest} (hrow : row.Follows pairs)
    (hascending : row.indices.Pairwise (· < ·)) (hpair : [i, j].Sublist row.indices)
    (hstarts : ∀ u ∈ row.spans, ∀ v ∈ row.spans, u.Holds i → ¬ u.Holds j → v.Holds j →
      ¬ v.Holds i → (target u).1 ≤ (target v).1) :
    Placement.Orders i j (row.placements target) := by
  induction row with
  | nil => simp [indices] at hpair
  | node s start stop inner rest ihInner ihRest =>
    obtain ⟨hholds, hbehind⟩ := hrow.holds hascending
    obtain ⟨hinnerAscending, hrestAscending⟩ := ascending_node hascending
    simp only [spans_node, List.mem_cons, List.mem_append] at hstarts
    rw [indices_node] at hpair
    -- The first span has both tags, or the first one only, or neither of them.
    rcases pair_sublist_append hpair with hpair | ⟨hi, hj⟩ | hpair
    · refine .within (List.mem_cons_self ..) fun lower upper => ?_
      cases hpair with
      | cons_cons _ hj =>
        have hmem : j ∈ inner.indices ++ s.closing.toList := List.singleton_sublist.mp hj
        rw [List.mem_append] at hmem
        refine List.Sublist.cons_cons _ (List.singleton_sublist.mpr (List.mem_append.mpr ?_))
        exact hmem.imp_left fun hj => mem_settle_placements hj lower upper
      | cons _ hpair =>
        refine List.Sublist.cons _ ?_
        rcases pair_sublist_append hpair with hpair | ⟨hi, hj⟩ | hpair
        · have hinner := ihInner hrow.2.1 hinnerAscending hpair
            fun u hu v hv => hstarts u (.inr (.inl hu)) v (.inr (.inl hv))
          exact (hinner.settle lower upper).trans (List.sublist_append_left _ _)
        · exact pair_sublist_of_mem (mem_settle_placements hi lower upper) hj
        · -- A span has a single closing tag.
          have hlength := hpair.length_le
          cases hclosing : s.closing <;> simp [hclosing] at hlength
    · obtain ⟨q, hq, hspan, hstart, hopening, hqj, hhas⟩ :=
        exists_placement target hrow.2.2 hrestAscending hj
      have hsi := hholds i hi
      have hbeyond := hbehind _ hopening
      have hle : (target s).1 ≤ (target q.span).1 := by
        refine hstarts s (.inl rfl) q.span (.inr (.inr hspan)) hsi (fun hsj => ?_) hqj fun hqi => ?_
        · exact Nat.not_lt.mpr hsj.2 (hbehind j hj)
        · exact Nat.not_lt.mpr (Nat.le_trans hqi.1 hsi.2) hbeyond
      exact .across (List.Sublist.cons_cons _ (List.singleton_sublist.mpr hq)) (hstart ▸ hle)
        (has_placement hi) hhas
    · exact (ihRest hrow.2.2 hrestAscending hpair
        fun u hu v hv => hstarts u (.inr (.inr hu)) v (.inr (.inr hv))).cons _

end SpanForest

namespace Translation

open Pairing (ofTags)

/-- **Two tags of a source keep their order** if no span with the first alone starts behind a span
with the second alone. -/
theorem pair_sublist_projectedRow {policy : UnalignedPolicy} {source : Sentence} {reach : Reach}
    {i j : Nat} (hlt : i < j) (hj : j < (ofTags source.tags).tags.length)
    (hstarts : ∀ u ∈ (ofTags source.tags).spans source.words.length,
      ∀ v ∈ (ofTags source.tags).spans source.words.length, u.Holds i → ¬ u.Holds j →
        v.Holds j → ¬ v.Holds i → (reach.span policy u).1 ≤ (reach.span policy v).1) :
    [i, j].Sublist (projectedRow policy source reach).indices := by
  have hrow := source.reads_spanTree
  have hpair := pair_sublist_of_lt hrow.ascending
    (hrow.mem_iff_lt.mpr (Nat.lt_trans hlt hj)) (hrow.mem_iff_lt.mpr hj) hlt
  rw [← source.spans_spanTree] at hstarts
  exact (SpanForest.orders_placements hrow.follows hrow.ascending hpair hstarts).settle 0
    reach.targetCount

end Translation

end MarkupTransfer
