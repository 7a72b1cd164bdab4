import MarkupTransfer.Projection.SpanTree
/-!
# Where spans come to lie

A span lies as near to the interval that it should have as its parent and the siblings in front of
it allow, and siblings come in the order of where they would start. So a row that is carried over is
nested, wherever an alignment sends its spans, and its tags stand in ascending order.

* `isLaid_project`: where the spans of a row that is carried over lie.
* `IsLaid.isNested`: such a row is nested.
* `isSpread_toTags`: the tags of a nested row stand in ascending order.
-/

namespace MarkupTransfer

theorem clamp_mono {lower upper m n : Nat} (h : m ≤ n) :
    clamp lower upper m ≤ clamp lower upper n := by
  unfold clamp
  omega

/-- A later lower bound takes the place of an earlier one. -/
theorem max_clamp {lower lower' upper n : Nat} (h : lower ≤ lower') :
    max (clamp lower upper n) lower' = clamp lower' upper n := by
  unfold clamp
  omega

namespace SpanForest

variable {target : Span → Nat × Nat} {lower cursor upper : Nat} {ps : List Placement}

/-- The spans of a row that lie in no other span of it. -/
def tops : SpanForest → List Span
  | nil => []
  | node s _ _ _ rest => s :: rest.tops

/-- Whether every span of a row lies as near to the interval that `target` gives it as the bounds
allow, and the spans of the row come in the order of where they would start. -/
def IsLaid (target : Span → Nat × Nat) (cursor upper : Nat) : SpanForest → Prop
  | nil => True
  | node s start stop inner rest =>
    start = clamp cursor upper (target s).1 ∧ stop = clamp start upper (target s).2 ∧
      (∀ x ∈ rest.tops, start ≤ clamp cursor upper (target x).1) ∧
      inner.IsLaid target start stop ∧ rest.IsLaid target stop upper

/-- Whether a placement has the interval that `target` gives its span, moved between two bounds, and
all that it holds will be laid inside it. -/
structure Placement.IsDue (target : Span → Nat × Nat) (lower upper : Nat) (p : Placement) :
    Prop where
  start_eq : p.start = clamp lower upper (target p.span).1
  stop_eq : p.stop = clamp p.start upper (target p.span).2
  fill : ∀ start stop, start ≤ stop → (p.fill start stop).IsLaid target start stop

theorem tops_layOut (cursor : Nat) (ps : List Placement) :
    (Placement.layOut cursor ps).tops = ps.map Placement.span := by
  induction ps generalizing cursor with
  | nil => rfl
  | cons p ps ih => exact congrArg _ (ih _)

/-- Siblings in order are laid one behind the other. -/
theorem isLaid_layOut (hlower : lower ≤ cursor) (hupper : cursor ≤ upper)
    (hdue : ∀ p ∈ ps, p.IsDue target lower upper)
    (hsorted : ps.Pairwise fun p q => p.start ≤ q.start) :
    (Placement.layOut cursor ps).IsLaid target cursor upper := by
  induction ps generalizing cursor with
  | nil => trivial
  | cons p ps ih =>
    obtain ⟨hp, hps⟩ := List.forall_mem_cons.mp hdue
    obtain ⟨hfirst, hrest⟩ := List.pairwise_cons.mp hsorted
    have hstart : max p.start cursor = clamp cursor upper (target p.span).1 := by
      rw [hp.start_eq, max_clamp hlower]
    have hstop : max p.stop (max p.start cursor) =
        clamp (max p.start cursor) upper (target p.span).2 := by
      rw [hp.stop_eq, max_clamp (Nat.le_max_left _ _)]
    have hle : max p.start cursor ≤ upper := by
      rw [hstart]
      unfold clamp
      omega
    have hhigh : max p.stop (max p.start cursor) ≤ upper := by
      rw [hstop]
      unfold clamp
      omega
    have hmid : max p.start cursor ≤ max p.stop (max p.start cursor) := Nat.le_max_right _ _
    refine ⟨hstart, hstop, fun x hx => ?_, hp.fill _ _ hmid, ih (by omega) hhigh hps hrest⟩
    rw [tops_layOut] at hx
    obtain ⟨q, hq, rfl⟩ := List.mem_map.mp hx
    have hbefore := hfirst q hq
    rw [← max_clamp hlower, ← (hps q hq).start_eq]
    omega

theorem isLaid_settle (h : lower ≤ upper)
    (hdue : ∀ p ∈ ps, (p.clampTo lower upper).IsDue target lower upper) :
    (Placement.settle lower upper ps).IsLaid target lower upper := by
  refine isLaid_layOut (Nat.le_refl lower) h (fun p hp => ?_) ?_
  · obtain ⟨q, hq, rfl⟩ := List.mem_map.mp (List.mem_mergeSort.mp hp)
    exact hdue q hq
  · refine (List.pairwise_mergeSort (fun a b c => ?_) (fun a b => ?_) _).imp of_decide_eq_true
    · simpa using Nat.le_trans
    · simpa using Nat.le_total a.start b.start

theorem isDue_placements (target : Span → Nat × Nat) (row : SpanForest) :
    ∀ p ∈ row.placements target, ∀ lower upper,
      (p.clampTo lower upper).IsDue target lower upper := by
  induction row with
  | nil => simp [placements]
  | node s start stop inner rest ihInner ihRest =>
    exact List.forall_mem_cons.mpr ⟨fun lower upper => ⟨rfl, rfl, fun start stop h =>
      isLaid_settle h fun p hp => ihInner p hp start stop⟩, ihRest⟩

/-- **Carried over, every span lies as near to its interval as the bounds allow.** -/
theorem isLaid_project (t : SpanTree) (width : Nat) (target : Span → Nat × Nat) :
    (t.project width target).forest.IsLaid target 0 width :=
  isLaid_settle (Nat.zero_le width) fun p hp => isDue_placements target t.forest p hp 0 width

/-- **Every span that is laid lies inside its parent, and siblings do not overlap.** -/
theorem IsLaid.isNested {row : SpanForest} (h : row.IsLaid target cursor upper)
    (hle : cursor ≤ upper) : row.isNested cursor upper = true := by
  induction row generalizing cursor upper with
  | nil => rfl
  | node s start stop inner rest ihInner ihRest =>
    obtain ⟨hstart, hstop, -, hinner, hrest⟩ := h
    unfold clamp at hstart hstop
    have hlow : cursor ≤ start := by omega
    have hmid : start ≤ stop := by omega
    have hhigh : stop ≤ upper := by omega
    simp only [SpanForest.isNested, Bool.and_eq_true, decide_eq_true_eq]
    exact ⟨⟨⟨⟨hlow, hmid⟩, hhigh⟩, ihInner hinner hmid⟩, ihRest hrest hhigh⟩

/-! ## Tags in order -/

/-- Tags in ascending order between two bounds. -/
structure IsSpread (lower upper : Nat) (tags : List Tag) : Prop where
  ascending : tags.Pairwise fun a b => a.position ≤ b.position
  bounds : ∀ t ∈ tags, lower ≤ t.position ∧ t.position ≤ upper

namespace IsSpread

variable {lower middle upper : Nat} {tags more : List Tag}

theorem nil (lower upper : Nat) : IsSpread lower upper [] := ⟨.nil, by simp⟩

theorem tagAt (source : List Tag) (index position : Nat) :
    IsSpread position position (tagAt source index position) := by
  unfold SpanForest.tagAt
  cases source[index]? with
  | none => exact nil _ _
  | some t => exact ⟨List.pairwise_singleton _ _, by simp⟩

theorem mono (h : IsSpread lower upper tags) {lower' upper' : Nat} (hlower : lower' ≤ lower)
    (hupper : upper ≤ upper') : IsSpread lower' upper' tags :=
  ⟨h.ascending, fun t ht =>
    ⟨Nat.le_trans hlower (h.bounds t ht).1, Nat.le_trans (h.bounds t ht).2 hupper⟩⟩

theorem append (h : IsSpread lower middle tags) (h' : IsSpread middle upper more)
    (hlower : lower ≤ middle) (hupper : middle ≤ upper) : IsSpread lower upper (tags ++ more) := by
  refine ⟨List.pairwise_append.mpr ⟨h.ascending, h'.ascending, fun a ha b hb => ?_⟩, fun t ht => ?_⟩
  · exact Nat.le_trans (h.bounds a ha).2 (h'.bounds b hb).1
  · rcases List.mem_append.mp ht with ht | ht
    · exact (h.mono (Nat.le_refl _) hupper).bounds t ht
    · exact (h'.mono hlower (Nat.le_refl _)).bounds t ht

theorem of_positions (h : IsSpread lower upper tags)
    (heq : more.map Tag.position = tags.map Tag.position) : IsSpread lower upper more := by
  have hascending : (tags.map Tag.position).Pairwise (· ≤ ·) := List.pairwise_map.mpr h.ascending
  refine ⟨List.pairwise_map.mp (heq ▸ hascending), fun t ht => ?_⟩
  have hmem : t.position ∈ tags.map Tag.position := heq ▸ List.mem_map_of_mem ht
  obtain ⟨u, hu, hposition⟩ := List.mem_map.mp hmem
  exact hposition ▸ h.bounds u hu

/-- A tag in front of another one stands no further on. -/
theorem position_le (h : IsSpread lower upper tags) {i j : Nat} {t u : Tag} (hlt : i < j)
    (ht : tags[i]? = some t) (hu : tags[j]? = some u) : t.position ≤ u.position := by
  obtain ⟨hi, rfl⟩ := List.getElem?_eq_some_iff.mp ht
  obtain ⟨hj, rfl⟩ := List.getElem?_eq_some_iff.mp hu
  exact List.pairwise_iff_getElem.mp h.ascending i j hi hj hlt

end IsSpread

/-- **The tags of a nested row stand in ascending order.** -/
theorem isSpread_toTags (source : List Tag) {lower upper : Nat} {row : SpanForest}
    (h : row.isNested lower upper = true) : IsSpread lower upper (row.toTags source) := by
  induction row generalizing lower upper with
  | nil => exact .nil lower upper
  | node s start stop inner rest ihInner ihRest =>
    simp only [isNested, Bool.and_eq_true, decide_eq_true_eq] at h
    obtain ⟨⟨⟨⟨hlower, hle⟩, hupper⟩, hinner⟩, hrest⟩ := h
    have hopening : IsSpread lower start (tagAt source s.opening start) :=
      (IsSpread.tagAt source s.opening start).mono hlower (Nat.le_refl _)
    have hheld := hopening.append (ihInner hinner) hlower hle
    have hlow : lower ≤ stop := Nat.le_trans hlower hle
    refine (hheld.append ?_ hlow (Nat.le_refl _)).append (ihRest hrest) hlow hupper
    cases s.closing with
    | none => exact .nil stop stop
    | some c => exact .tagAt source c stop

end SpanForest

end MarkupTransfer
