import MarkupTransfer.Proofs.Projection.Nesting
/-!
# Carrying spans over keeps them

To carry a row of spans over, siblings are put in the order of their new intervals, inside every
parent. Spans change their places among their siblings and nothing else.

* `Rearranged`: two rows with the same spans, siblings in any order.
* `rearranged_project`: carrying over rearranges.
* `Rearranged.indices_perm`, `Rearranged.exists_enclosure`: no tag is lost, and every pair holds the
  same tags as before.
-/

namespace MarkupTransfer.SpanForest

/-- Two rows with the same spans at any intervals, siblings in any order. -/
inductive Rearranged : SpanForest → SpanForest → Prop
  | nil : Rearranged nil nil
  | node {s : Span} {start stop start' stop' : Nat} {inner inner' rest rest' : SpanForest} :
      Rearranged inner inner' → Rearranged rest rest' →
      Rearranged (node s start stop inner rest) (node s start' stop' inner' rest')
  | swap {s t : Span} {start stop start' stop' : Nat} {inner inner' rest : SpanForest} :
      Rearranged (node s start stop inner (node t start' stop' inner' rest))
        (node t start' stop' inner' (node s start stop inner rest))
  | trans {row row' row'' : SpanForest} :
      Rearranged row row' → Rearranged row' row'' → Rearranged row row''

namespace Rearranged

variable {row row' : SpanForest}

theorem refl (row : SpanForest) : Rearranged row row := by
  induction row with
  | nil => exact nil
  | node _ _ _ _ _ ihInner ihRest => exact node ihInner ihRest

/-- The tags of a row stay the same tags. -/
theorem indices_perm (h : Rearranged row row') : row.indices.Perm row'.indices := by
  induction h with
  | nil => exact .nil
  | node _ _ ihInner ihRest => exact .cons _ (ihInner.append (ihRest.append_left _))
  | @swap s t start stop start' stop' inner inner' rest =>
    -- Two blocks change places in front of the rest.
    have hblocks : ((s.opening :: (inner.indices ++ s.closing.toList)) ++
        (t.opening :: (inner'.indices ++ t.closing.toList))).Perm
        ((t.opening :: (inner'.indices ++ t.closing.toList)) ++
        (s.opening :: (inner.indices ++ s.closing.toList))) := List.perm_append_comm
    simpa [indices, List.append_assoc] using hblocks.append_right rest.indices
  | trans _ _ ih ih' => exact ih.trans ih'

theorem eq_nil (h : Rearranged SpanForest.nil row) : row = SpanForest.nil := by
  have hperm := h.indices_perm
  cases row with
  | nil => rfl
  | node s start stop inner rest =>
    have := hperm.length_eq
    simp [indices] at this

theorem follows {pairs : List (Nat × Nat)} (h : Rearranged row row') (hrow : row.Follows pairs) :
    row'.Follows pairs := by
  induction h with
  | nil => trivial
  | @node s _ _ _ _ inner inner' _ _ hinner _ ihInner ihRest =>
    obtain ⟨hs, hinnerFollows, hrestFollows⟩ := hrow
    refine ⟨?_, ihInner hinnerFollows, ihRest hrestFollows⟩
    cases hclosing : s.closing with
    | some c =>
      rw [hclosing] at hs
      exact hs
    | none =>
      rw [hclosing] at hs
      exact ⟨(hs.1 ▸ hinner).eq_nil, hs.2⟩
  | swap =>
    obtain ⟨hs, hinner, ht, hinner', hrest⟩ := hrow
    exact ⟨ht, hinner', hs, hinner, hrest⟩
  | trans _ _ ih ih' => exact ih' (ih hrow)

/-- **A pair holds the same tags as before.** -/
theorem exists_enclosure (h : Rearranged row row') {o c : Nat} {inside : List Nat}
    (hm : (o, c, inside) ∈ row.enclosures) :
    ∃ inside', (o, c, inside') ∈ row'.enclosures ∧ inside.Perm inside' := by
  induction h generalizing inside with
  | nil => cases hm
  | @node s _ _ _ _ inner inner' rest rest' hinner _ ihInner ihRest =>
    simp only [enclosures, List.mem_append, List.mem_map, Option.mem_toList] at hm ⊢
    rcases hm with ⟨c', hc', heq⟩ | hm | hm
    · obtain ⟨rfl, rfl, rfl⟩ : s.opening = o ∧ c' = c ∧ inner.indices = inside := by
        simpa using heq
      exact ⟨inner'.indices, .inl ⟨c', hc', rfl⟩, hinner.indices_perm⟩
    · obtain ⟨inside', hm', hperm⟩ := ihInner hm
      exact ⟨inside', .inr (.inl hm'), hperm⟩
    · obtain ⟨inside', hm', hperm⟩ := ihRest hm
      exact ⟨inside', .inr (.inr hm'), hperm⟩
  | swap =>
    refine ⟨inside, ?_, .refl inside⟩
    simp only [enclosures, List.mem_append] at hm ⊢
    rcases hm with hm | hm | hm | hm | hm <;> simp [hm]
  | trans _ _ ih ih' =>
    obtain ⟨mid, hmid, hperm⟩ := ih hm
    obtain ⟨inside', hm', hperm'⟩ := ih' hmid
    exact ⟨inside', hm', hperm.trans hperm'⟩

end Rearranged

/-! ## Placements -/

/-- Placements for the spans of a row, each with a rearrangement of what its span holds. -/
inductive Carries : List Placement → SpanForest → Prop
  | nil : Carries [] .nil
  | cons {p : Placement} {ps : List Placement} {start stop : Nat} {inner rest : SpanForest} :
      (∀ lower upper, Rearranged inner (p.fill lower upper)) → Carries ps rest →
      Carries (p :: ps) (.node p.span start stop inner rest)

namespace Carries

variable {ps qs : List Placement} {row : SpanForest}

theorem map_clampTo (h : Carries ps row) (lower upper : Nat) :
    Carries (ps.map (Placement.clampTo lower upper)) row := by
  induction h with
  | nil => exact nil
  | @cons p _ _ _ _ _ hfill _ ih => exact cons (p := p.clampTo lower upper) hfill ih

theorem perm (h : Carries ps row) (hperm : ps.Perm qs) :
    ∃ row', Carries qs row' ∧ Rearranged row row' := by
  induction hperm generalizing row with
  | nil => exact ⟨row, h, .refl row⟩
  | cons p _ ih =>
    cases h with
    | @cons _ _ start stop inner rest hfill hrest =>
      obtain ⟨rest', hcarries, hrearranged⟩ := ih hrest
      exact ⟨node p.span start stop inner rest', cons hfill hcarries, .node (.refl _) hrearranged⟩
  | swap p q ps =>
    cases h with
    | cons hfill hrest =>
      cases hrest with
      | cons hfill' hrest => exact ⟨_, cons hfill' (cons hfill hrest), .swap⟩
  | trans _ _ ih ih' =>
    obtain ⟨mid, hmid, hrearranged⟩ := ih h
    obtain ⟨row', hrow', hrearranged'⟩ := ih' hmid
    exact ⟨row', hrow', hrearranged.trans hrearranged'⟩

theorem layOut (h : Carries ps row) (cursor : Nat) :
    Rearranged row (Placement.layOut cursor ps) := by
  induction h generalizing cursor with
  | nil => exact .nil
  | cons hfill _ ih => exact .node (hfill _ _) (ih _)

end Carries

/-- Siblings that are settled are rearranged. -/
theorem Carries.settle {ps : List Placement} {row : SpanForest} (h : Carries ps row)
    (lower upper : Nat) : Rearranged row (Placement.settle lower upper ps) := by
  obtain ⟨row', hcarries, hrearranged⟩ :=
    (h.map_clampTo lower upper).perm (List.mergeSort_perm _ _).symm
  exact hrearranged.trans (hcarries.layOut lower)

theorem carries_placements (target : Span → Nat × Nat) (row : SpanForest) :
    Carries (row.placements target) row := by
  induction row with
  | nil => exact .nil
  | node s start stop inner rest ihInner ihRest =>
    exact .cons (p := ⟨s, _, _, _⟩) (fun lower upper => ihInner.settle lower upper) ihRest

/-- **Carrying over rearranges spans and changes nothing else.** -/
theorem rearranged_project (t : SpanTree) (width : Nat) (target : Span → Nat × Nat) :
    Rearranged t.forest (t.project width target).forest :=
  (carries_placements target t.forest).settle 0 width

end MarkupTransfer.SpanForest
