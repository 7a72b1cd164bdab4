import MarkupTransfer.Projection.Guarded
import MarkupTransfer.Proofs.Projection.Lineage
/-!
# Spans find their places wherever they are sent

A span is laid between the bounds of its parent only after the parent has been laid itself, and a
span that is laid never ends in front of its start. So the bounds are in order at every move, even
if spans are sent to intervals that are the wrong way round, overlap or reach out of the sentence.
What comes out is nested, and spans lie in the spans that they lay in.

* `Waiting.Agrees`: a span that waits for its place, with and without checks.
* `Waiting.settle?_eq_some`, `project?_eq_some`: no check fails.
* `project_stays_nested`: what comes out.
-/

namespace MarkupTransfer

variable {lower upper cursor : Nat}

theorem clamp?_eq_some (h : lower ≤ upper) (n : Nat) :
    clamp? lower upper n = some (clamp lower upper n) :=
  if_pos h

/-- Sorting keeps each element with the one that it belongs to, if the two are compared alike. -/
theorem forall₂_mergeSort {α β : Type} {R : α → β → Prop} {le : α → α → Bool} {le' : β → β → Bool}
    (hle : ∀ {a b c d}, R a b → R c d → le a c = le' b d) {l : List α} {l' : List β}
    (h : List.Forall₂ R l l') : List.Forall₂ R (l.mergeSort le) (l'.mergeSort le') := by
  obtain ⟨both, hboth, rfl, rfl⟩ : ∃ both : List (α × β), (∀ p ∈ both, R p.1 p.2) ∧
      both.map Prod.fst = l ∧ both.map Prod.snd = l' := by
    induction h with
    | nil => exact ⟨[], by simp, rfl, rfl⟩
    | @cons a b _ _ hab _ ih =>
      obtain ⟨both, hboth, rfl, rfl⟩ := ih
      exact ⟨(a, b) :: both, List.forall_mem_cons.mpr ⟨hab, hboth⟩, rfl, rfl⟩
  -- The pairs are sorted by their first parts, which sorts their second parts as well.
  rw [← List.map_mergeSort (r := fun p q => le p.1 q.1) (fun _ _ _ _ => rfl),
    ← List.map_mergeSort (r := fun p q => le p.1 q.1) fun p hp q hq =>
      hle (hboth p hp) (hboth q hq),
    List.forall₂_map_left_iff, List.forall₂_map_right_iff, List.forall₂_same]
  exact fun p hp => hboth p (List.mem_mergeSort.mp hp)

namespace SpanForest

namespace Waiting

/-- A span waits for its place as it does without checks: what lies in it can be laid between any
bounds that are in order, and is laid as it would be. -/
structure Agrees (w : Waiting) (p : Placement) : Prop where
  span_eq : w.span = p.span
  start_eq : w.start = p.start
  stop_eq : w.stop = p.stop
  fill?_eq : ∀ lower upper, lower ≤ upper → w.fill? lower upper = some (p.fill lower upper)

variable {w : Waiting} {p : Placement} {ws : List Waiting} {ps : List Placement}

/-- Moved between bounds, a span starts between them, so there is room for its end. -/
theorem Agrees.clampTo? (h : w.Agrees p) (hle : lower ≤ upper) :
    ∃ w', w.clampTo? lower upper = some w' ∧ w'.Agrees (p.clampTo lower upper) := by
  have hstart : clamp lower upper w.start ≤ upper := by
    unfold clamp
    omega
  rw [Waiting.clampTo?, clamp?_eq_some hle, Option.bind_eq_bind, Option.bind_some,
    clamp?_eq_some hstart, Option.bind_some]
  refine ⟨_, rfl, h.span_eq, ?_, ?_, h.fill?_eq⟩
  · rw [Placement.clampTo, h.start_eq]
  · rw [Placement.clampTo, h.start_eq, h.stop_eq]

theorem mapM_clampTo? (h : List.Forall₂ Agrees ws ps) (hle : lower ≤ upper) :
    ∃ ws', ws.mapM (Waiting.clampTo? lower upper) = some ws' ∧
      List.Forall₂ Agrees ws' (ps.map (Placement.clampTo lower upper)) := by
  induction h with
  | nil => exact ⟨[], rfl, .nil⟩
  | cons hwp _ ih =>
    obtain ⟨w', hw', hagrees⟩ := hwp.clampTo? hle
    obtain ⟨ws', hws', hrest⟩ := ih
    exact ⟨w' :: ws', by rw [List.mapM_cons, hw', hws']; rfl, .cons hagrees hrest⟩

/-- Siblings are laid from their starts to ends that are pushed behind these. -/
theorem layOut?_eq_some (h : List.Forall₂ Agrees ws ps) (cursor : Nat) :
    layOut? cursor ws = some (Placement.layOut cursor ps) := by
  induction h generalizing cursor with
  | nil => rfl
  | cons hwp _ ih =>
    rw [layOut?, Placement.layOut, hwp.start_eq, hwp.stop_eq, hwp.span_eq,
      hwp.fill?_eq _ _ (Nat.le_max_right _ _), ih]
    rfl

/-- **Siblings are settled between any bounds that are in order.** -/
theorem settle?_eq_some (h : List.Forall₂ Agrees ws ps) (hle : lower ≤ upper) :
    settle? lower upper ws = some (Placement.settle lower upper ps) := by
  obtain ⟨ws', hclamped, hagrees⟩ := mapM_clampTo? h hle
  have hsorted : List.Forall₂ Agrees (ws'.mergeSort fun a b => decide (a.start ≤ b.start))
      ((ps.map (Placement.clampTo lower upper)).mergeSort fun a b => decide (a.start ≤ b.start)) :=
    forall₂_mergeSort (fun hab hcd => by rw [hab.start_eq, hcd.start_eq]) hagrees
  rw [settle?, hclamped]
  exact layOut?_eq_some hsorted lower

theorem agrees_waiting (target : Span → Nat × Nat) (row : SpanForest) :
    List.Forall₂ Agrees (row.waiting target) (row.placements target) := by
  induction row with
  | nil => exact .nil
  | node s start stop inner rest ihInner ihRest =>
    exact .cons ⟨rfl, rfl, rfl, fun lower upper hle => settle?_eq_some ihInner hle⟩ ihRest

end Waiting

end SpanForest

namespace SpanTree

/-- **Spans can be carried over wherever they are sent.** -/
theorem project?_eq_some (t : SpanTree) (width : Nat) (target : Span → Nat × Nat) :
    t.project? width target = some (t.project width target) := by
  rw [project?, SpanForest.Waiting.settle?_eq_some
    (SpanForest.Waiting.agrees_waiting target t.forest) (Nat.zero_le width)]
  rfl

/-- **Carried over, spans are nested wherever they are sent.** No bounds are ever the wrong way
round. Every span lies inside its parent, the outermost ones inside the sentence, and siblings do
not overlap; within that, each lies as near as it can to the interval that it is sent to. Spans lie
in the same spans as before, in another order among their siblings at most, and their tags stand in
ascending order. -/
theorem project_stays_nested (t : SpanTree) (width : Nat) (target : Span → Nat × Nat) :
    t.project? width target = some (t.project width target) ∧
      (t.project width target).width = width ∧ (t.project width target).isNested = true ∧
      (t.project width target).forest.IsLaid target 0 width ∧
      SpanForest.Rearranged t.forest (t.project width target).forest ∧
      (t.project width target).spans.Perm t.spans ∧
      (t.project width target).links.Perm t.links ∧
      ∀ source, ((t.project width target).toTags source).Pairwise
        fun a b => a.position ≤ b.position := by
  have hlaid := SpanForest.isLaid_project t width target
  have hnested : (t.project width target).isNested = true := hlaid.isNested (Nat.zero_le width)
  have hrearranged := SpanForest.rearranged_project t width target
  exact ⟨t.project?_eq_some width target, rfl, hnested, hlaid, hrearranged,
    hrearranged.spans_perm.symm, (hrearranged.links_perm none).symm,
    fun source => (SpanForest.isSpread_toTags source hnested).ascending⟩

end SpanTree

end MarkupTransfer
