import MarkupTransfer.Proofs.Projection.Spans
import MarkupTransfer.Proofs.Projection.Transfer
/-!
# Spans of a row hold each other or are apart

A row has the spans it was made of. Every span of it holds the spans inside it, and of two others
one ends in front of the other one. Both are told of the tags that the spans had, so they stay true
when the row is rearranged.

* `spans_ofSpans`: the spans of a row.
* `links`, `Rearranged.links_perm`: in which spans they lie, which rearranging does not change.
* `Follows.holds`: the tags that a span holds, and those behind it.
* `Follows.separates`, `Rearranged.separates`: which spans hold each other.
-/

namespace MarkupTransfer

/-- Whether one of two spans ends in front of the other. -/
def Span.IsApart (u v : Span) : Prop := u.last < v.opening ∨ v.last < u.opening

theorem Span.IsApart.symm {u v : Span} (h : u.IsApart v) : v.IsApart u := Or.symm h

/-- The tags of a span and of the row inside it. -/
def Span.block (s : Span) (inner : SpanForest) : List Nat :=
  s.opening :: (inner.indices ++ s.closing.toList)

namespace SpanForest

variable {pairs : List (Nat × Nat)}

theorem indices_node (s : Span) (start stop : Nat) (inner rest : SpanForest) :
    (node s start stop inner rest).indices = s.block inner ++ rest.indices := by
  simp [indices, Span.block]

/-- The spans of a row. -/
def spans (row : SpanForest) : List Span := row.toList.map Prod.fst

@[simp] theorem spans_nil : nil.spans = [] := rfl

@[simp] theorem spans_node (s : Span) (start stop : Nat) (inner rest : SpanForest) :
    (node s start stop inner rest).spans = s :: (inner.spans ++ rest.spans) := by
  simp [spans, toList]

theorem spans_splitAt (c : Nat) (row : SpanForest) :
    (row.splitAt c).1.spans ++ (row.splitAt c).2.spans = row.spans := by
  induction row with
  | nil => rfl
  | node s start stop inner rest _ ih =>
    rw [splitAt]
    split
    · simp only [spans_node, List.cons_append, List.append_assoc, ih]
    · rfl

/-- A row that is made of spans has these spans, in their order. -/
theorem spans_ofSpans (l : List Span) : (ofSpans l).spans = l := by
  induction l with
  | nil => rfl
  | cons s rest ih =>
    rw [ofSpans, enclose]
    cases s.closing with
    | none => simp only [spans_node, spans_nil, List.nil_append, ih]
    | some c => simp only [spans_node, spans_splitAt, ih]

/-- The tags that a span has in an ascending row, and those behind it. -/
theorem Follows.holds {s : Span} {start stop : Nat} {inner rest : SpanForest}
    (h : (node s start stop inner rest).Follows pairs)
    (hascending : (node s start stop inner rest).indices.Pairwise (· < ·)) :
    (∀ i ∈ s.block inner, s.Holds i) ∧ ∀ i ∈ rest.indices, s.last < i := by
  obtain ⟨hfirst, htail⟩ := List.pairwise_cons.mp hascending
  obtain ⟨-, hback, hinner⟩ := List.pairwise_append.mp htail
  obtain ⟨-, -, hrest⟩ := List.pairwise_append.mp hback
  unfold Span.Holds Span.last Span.block
  cases hclosing : s.closing with
  | none =>
    obtain ⟨hs, -, -⟩ := h
    rw [hclosing] at hs
    refine ⟨fun i hi => ?_, fun i hi => hfirst i (by simp [hi])⟩
    obtain rfl : i = s.opening := by simpa [hs.1, indices] using hi
    exact ⟨Nat.le_refl _, Nat.le_refl _⟩
  | some c =>
    simp only [hclosing, Option.toList_some] at hfirst hinner hrest
    refine ⟨fun i hi => ?_, fun i hi => hrest c (by simp) i hi⟩
    simp only [List.mem_cons, List.mem_append, Option.toList_some, List.not_mem_nil, or_false] at hi
    rcases hi with rfl | hi | rfl
    · exact ⟨Nat.le_refl _, Nat.le_of_lt (hfirst c (by simp))⟩
    · exact ⟨Nat.le_of_lt (hfirst i (by simp [hi])), Nat.le_of_lt (hinner i hi c (by simp))⟩
    · exact ⟨Nat.le_of_lt (hfirst i (by simp)), Nat.le_refl _⟩

/-- The rows inside a span and behind it ascend if the whole row does. -/
theorem ascending_node {s : Span} {start stop : Nat} {inner rest : SpanForest}
    (h : (node s start stop inner rest).indices.Pairwise (· < ·)) :
    inner.indices.Pairwise (· < ·) ∧ rest.indices.Pairwise (· < ·) :=
  ⟨h.sublist ((List.sublist_append_left _ _).trans (List.sublist_cons_self _ _)),
    h.sublist (((List.sublist_append_right _ _).trans (List.sublist_append_right _ _)).trans
      (List.sublist_cons_self _ _))⟩

/-- Whether every span of a row holds the spans inside it and is apart from those beside it. -/
def Separates : SpanForest → Prop
  | nil => True
  | node s _ _ inner rest =>
    (∀ v ∈ inner.spans, s.Holds v.opening) ∧
      (∀ v ∈ s :: inner.spans, ∀ w ∈ rest.spans, v.IsApart w) ∧
      inner.Separates ∧ rest.Separates

/-- Every span of a row with the span that it lies in directly. Those that lie in no other span of
the row lie in `parent`, if there is one. -/
def links (parent : Option Span) : SpanForest → List (Option Span × Span)
  | nil => []
  | node s _ _ inner rest => (parent, s) :: (inner.links (some s) ++ rest.links parent)

theorem map_snd_links (parent : Option Span) (row : SpanForest) :
    (row.links parent).map Prod.snd = row.spans := by
  induction row generalizing parent with
  | nil => rfl
  | node s start stop inner rest ihInner ihRest =>
    simp only [links, List.map_cons, List.map_append, ihInner, ihRest, spans_node]

/-- **Rearranged spans lie in the same spans as before.** -/
theorem Rearranged.links_perm {row row' : SpanForest} (h : Rearranged row row')
    (parent : Option Span) : (row.links parent).Perm (row'.links parent) := by
  induction h generalizing parent with
  | nil => exact .nil
  | @node s _ _ _ _ _ _ _ _ _ _ ihInner ihRest =>
    exact .cons _ ((ihInner (some s)).append (ihRest parent))
  | @swap s t _ _ _ _ inner inner' rest =>
    have hblocks : (((parent, s) :: inner.links (some s)) ++
        ((parent, t) :: inner'.links (some t))).Perm
        (((parent, t) :: inner'.links (some t)) ++ ((parent, s) :: inner.links (some s))) :=
      List.perm_append_comm
    simpa [links, List.append_assoc] using hblocks.append_right (rest.links parent)
  | trans _ _ ih ih' => exact (ih parent).trans (ih' parent)

/-- Rearranged spans are the same spans as before. -/
theorem Rearranged.spans_perm {row row' : SpanForest} (h : Rearranged row row') :
    row.spans.Perm row'.spans := by
  have hperm := (h.links_perm none).map Prod.snd
  rwa [map_snd_links, map_snd_links] at hperm

theorem Rearranged.separates {row row' : SpanForest} (h : Rearranged row row')
    (hrow : row.Separates) : row'.Separates := by
  induction h with
  | nil => trivial
  | @node s _ _ _ _ inner inner' rest rest' hinner hrest ihInner ihRest =>
    obtain ⟨hholds, hapart, hinnerSeparates, hrestSeparates⟩ := hrow
    refine ⟨fun v hv => hholds v (hinner.spans_perm.mem_iff.mpr hv), fun v hv w hw => ?_,
      ihInner hinnerSeparates, ihRest hrestSeparates⟩
    refine hapart v ?_ w (hrest.spans_perm.mem_iff.mpr hw)
    exact (hinner.spans_perm.cons s).mem_iff.mpr hv
  | @swap s t _ _ _ _ inner inner' rest =>
    obtain ⟨hholds, hapart, hinner, hholds', hapart', hinner', hrest⟩ := hrow
    simp only [spans_node, List.mem_cons, List.mem_append] at hapart hapart'
    refine ⟨hholds', fun v hv w hw => ?_, hinner', hholds, fun v hv w hw => ?_, hinner, hrest⟩
    · simp only [spans_node, List.mem_cons, List.mem_append] at hv hw
      rcases hw with hw | hw | hw
      · exact (hapart w (.inl hw) v (hv.imp_right .inl)).symm
      · exact (hapart w (.inr hw) v (hv.imp_right .inl)).symm
      · exact hapart' v hv w hw
    · exact hapart v (List.mem_cons.mp hv) w (.inr (.inr hw))
  | trans _ _ ih ih' => exact ih' (ih hrow)

/-- The two tags of a span are tags of its row. -/
theorem mem_indices_of_mem_spans {row : SpanForest} {v : Span} (hv : v ∈ row.spans) :
    v.opening ∈ row.indices ∧ v.last ∈ row.indices := by
  induction row with
  | nil => cases hv
  | node s start stop inner rest ihInner ihRest =>
    simp only [spans_node, List.mem_cons, List.mem_append] at hv
    simp only [indices, List.mem_cons, List.mem_append]
    rcases hv with rfl | hv | hv
    · refine ⟨.inl rfl, ?_⟩
      unfold Span.last
      cases v.closing <;> simp
    · exact ⟨.inr (.inl (ihInner hv).1), .inr (.inl (ihInner hv).2)⟩
    · exact ⟨.inr (.inr (.inr (ihRest hv).1)), .inr (.inr (.inr (ihRest hv).2))⟩

/-- The spans of an ascending row hold what is inside them and are apart otherwise. -/
theorem Follows.separates {row : SpanForest} (hrow : row.Follows pairs)
    (hascending : row.indices.Pairwise (· < ·)) : row.Separates := by
  induction row with
  | nil => trivial
  | node s start stop inner rest ihInner ihRest =>
    obtain ⟨hholds, hbehind⟩ := hrow.holds hascending
    obtain ⟨hinnerAscending, hrestAscending⟩ := ascending_node hascending
    have hinner : ∀ i ∈ inner.indices, s.Holds i := fun i hi => hholds i (by simp [Span.block, hi])
    refine ⟨fun v hv => hinner _ (mem_indices_of_mem_spans hv).1, fun v hv w hw => .inl ?_,
      ihInner hrow.2.1 hinnerAscending, ihRest hrow.2.2 hrestAscending⟩
    have hw := hbehind _ (mem_indices_of_mem_spans hw).1
    rcases List.mem_cons.mp hv with rfl | hv
    · exact hw
    · exact Nat.lt_of_le_of_lt (hinner _ (mem_indices_of_mem_spans hv).2).2 hw

/-- The top span that has a span of a row. -/
theorem exists_top {row : SpanForest} (hrow : row.Separates) {s : Span} (hs : s ∈ row.spans)
    (hself : s.Holds s.opening) : ∃ x ∈ row.tops, x ∈ row.spans ∧ x.Holds s.opening := by
  induction row with
  | nil => cases hs
  | node y start stop inner rest _ ih =>
    obtain ⟨hholds, -, -, hrest⟩ := hrow
    simp only [spans_node, List.mem_cons, List.mem_append] at hs ⊢
    rcases hs with rfl | hs | hs
    · exact ⟨s, List.mem_cons_self .., .inl rfl, hself⟩
    · exact ⟨y, List.mem_cons_self .., .inl rfl, hholds s hs⟩
    · obtain ⟨x, hx, hmem, hxs⟩ := ih hrest hs
      exact ⟨x, List.mem_cons_of_mem _ hx, .inr (.inr hmem), hxs⟩

end SpanForest

open Pairing (ofTags)

theorem Sentence.spans_spanTree (s : Sentence) :
    s.spanTree.forest.spans = (ofTags s.tags).spans s.words.length :=
  SpanForest.spans_ofSpans _

namespace Translation

variable {source : Sentence}

theorem separates_projectedRow (policy : UnalignedPolicy) (source : Sentence) (reach : Reach) :
    (projectedRow policy source reach).Separates :=
  (rearranged_projectedRow policy source reach).separates
    (source.reads_spanTree.follows.separates source.reads_spanTree.ascending)

/-- The spans of a source that is carried over are those of the source. -/
theorem mem_spans_projectedRow {policy : UnalignedPolicy} {reach : Reach} {u : Span} :
    u ∈ (projectedRow policy source reach).spans ↔
      u ∈ (ofTags source.tags).spans source.words.length := by
  rw [← (rearranged_projectedRow policy source reach).spans_perm.mem_iff, source.spans_spanTree]

end Translation

end MarkupTransfer
