import MarkupTransfer.Projection.Stacked
import MarkupTransfer.Proofs.Projection.Spans
/-!
# One pass makes the nesting of the tags

A pair that is open will take in what begins in front of its closing tag, and the pair around it
what is left. So what a tree under construction becomes is known from the row that the spans to come
make, and it stays the same while these are taken in one by one. The one thing to see to is that no
span begins at the tag that closes a pair.

* `Builder.fill`: what a tree under construction becomes.
* `fill_add`: taking in a span changes nothing about that; `fill_foldl`: nor does taking in all.
* `build_spans`: the tree of the spans of tags.
-/

namespace MarkupTransfer

open Pairing (ofTags)

namespace SpanForest

theorem append_nil (row : SpanForest) : row.append nil = row := by
  induction row with
  | nil => rfl
  | node s start stop inner rest _ ih => rw [append, ih]

theorem append_assoc (front row back : SpanForest) :
    (front.append row).append back = front.append (row.append back) := by
  induction front with
  | nil => rfl
  | node s start stop inner rest _ ih => rw [append, append, append, ih]

namespace Builder

/-- What a tree under construction becomes if the spans to come make a row. The innermost open pair
takes in the front of the row up to its closing tag, and what is left goes to the pair around it. -/
def fill : Builder → SpanForest → SpanForest
  | ⟨outer, []⟩, row => outer.append row
  | ⟨outer, f :: fs⟩, row =>
    fill (put { f with held := f.held.append (row.splitAt f.closing).1 }.row ⟨outer, fs⟩)
      (row.splitAt f.closing).2
termination_by b => b.opened.length
decreasing_by
  rw [length_put]
  exact Nat.lt_succ_self _

/-- The tags that close the open pairs. -/
def closings (b : Builder) : List Nat := b.opened.map OpenPair.closing

theorem closings_put (row : SpanForest) (b : Builder) : (b.put row).closings = b.closings := by
  obtain ⟨outer, _ | ⟨f, fs⟩⟩ := b <;> rfl

variable {b : Builder} {s : Span} {index start stop : Nat} {inner row : SpanForest}

/-- If no spans are to come, all pairs are closed. -/
theorem fill_nil (b : Builder) : b.fill nil = b.closeAll := by
  fun_induction closeAll b with
  | case1 outer => rw [fill, append_nil]
  | case2 outer f fs ih => rw [fill, splitAt, append_nil, ih]

/-! ## Taking in a span -/

/-- Pairs that end in front of the next span take in nothing any more. -/
theorem fill_closeBefore (b : Builder) :
    (b.closeBefore s.opening).fill (node s start stop inner row) =
      b.fill (node s start stop inner row) := by
  fun_induction closeBefore s.opening b with
  | case1 outer => rfl
  | case2 outer f fs hlt ih =>
    -- The row begins behind the closing tag, so what the pair takes in is empty.
    rw [ih, fill, splitAt, if_neg (Nat.lt_asymm hlt), append_nil]
  | case3 outer f fs hge => rfl

/-- The innermost pair that is left open does not end in front of the next span. -/
theorem le_closing_of_closeBefore {b : Builder} :
    ∀ c ∈ (b.closeBefore index).closings.head?, index ≤ c := by
  fun_induction closeBefore index b with
  | case1 outer => simp [closings]
  | case2 outer f fs hlt ih => exact ih
  | case3 outer f fs hge => simpa [closings] using hge

theorem closings_closeBefore (index : Nat) (b : Builder) :
    (b.closeBefore index).closings ⊆ b.closings := by
  fun_induction closeBefore index b with
  | case1 outer => exact List.Subset.refl _
  | case2 outer f fs hlt ih =>
    rw [closings_put] at ih
    exact List.Subset.trans ih (List.subset_cons_self _ _)
  | case3 outer f fs hge => exact List.Subset.refl _

/-- A span that begins in front of the tag that closes the innermost open pair goes there. -/
theorem fill_put (h : ∀ c ∈ b.closings.head?, s.opening < c) :
    (b.put (node s start stop inner nil)).fill row = b.fill (node s start stop inner row) := by
  obtain ⟨outer, _ | ⟨f, fs⟩⟩ := b
  · rw [put, fill, fill, append_assoc]
    rfl
  · have hlt : s.opening < f.closing := h f.closing rfl
    rw [put, fill, fill, splitAt, if_pos hlt, append_assoc]
    rfl

/-- A new pair takes in the front of the row before it goes to the pair around it. -/
theorem fill_open (b : Builder) (s : Span) (c : Nat) (row : SpanForest) :
    fill ⟨b.outer, ⟨s, c, nil⟩ :: b.opened⟩ row =
      (b.put (node s s.start s.stop (row.splitAt c).1 nil)).fill (row.splitAt c).2 := by
  rw [fill]
  rfl

/-- **Taking in a span** leaves alone what the tree becomes, if the span begins at no tag that
closes an open pair. -/
theorem fill_add (h : s.opening ∉ b.closings) (row : SpanForest) :
    (b.add s).fill row = b.fill (enclose s row) := by
  have hbefore : ∀ c ∈ (b.closeBefore s.opening).closings.head?, s.opening < c := by
    intro c hc
    refine Nat.lt_of_le_of_ne (le_closing_of_closeBefore c hc) fun heq => h ?_
    rw [heq]
    exact closings_closeBefore _ _ (List.mem_of_mem_head? hc)
  rw [add, enclose]
  cases s.closing with
  | none => rw [fill_put hbefore, fill_closeBefore]
  | some c => exact (fill_open _ s c row).trans ((fill_put hbefore).trans (fill_closeBefore b))

theorem closings_add (b : Builder) (s : Span) :
    (b.add s).closings ⊆ s.closing.toList ++ b.closings := by
  have hbefore := closings_closeBefore s.opening b
  rw [add]
  cases s.closing with
  | none =>
    rw [closings_put]
    exact hbefore
  | some c => exact List.cons_subset_cons c hbefore

/-- **Taking in spans one by one** leaves alone what the tree becomes. -/
theorem fill_foldl {l : List Span} (hopened : ∀ v ∈ l, v.opening ∉ b.closings)
    (hspans : ∀ u ∈ l, ∀ v ∈ l, u.closing ≠ some v.opening) :
    (l.foldl add b).fill nil = b.fill (ofSpans l) := by
  induction l generalizing b with
  | nil => rfl
  | cons s rest ih =>
    obtain ⟨hs, hrest⟩ := List.forall_mem_cons.mp hopened
    rw [List.foldl_cons, ofSpans, ← fill_add hs]
    refine ih (fun v hv hmem => ?_) fun u hu v hv =>
      hspans u (List.mem_cons_of_mem _ hu) v (List.mem_cons_of_mem _ hv)
    rcases List.mem_append.mp (closings_add b s hmem) with hclosing | hclosing
    · exact hspans s (List.mem_cons_self ..) v (List.mem_cons_of_mem _ hv)
        (Option.mem_toList.mp hclosing)
    · exact hrest v hv hclosing

end Builder

end SpanForest

/-- **One pass makes the nesting of spans**, if none begins at a tag that closes another one. -/
theorem SpanTree.build_eq_ofSpans {l : List Span} (width : Nat)
    (h : ∀ u ∈ l, ∀ v ∈ l, u.closing ≠ some v.opening) : build width l = ofSpans width l := by
  have hopened : ∀ v ∈ l, v.opening ∉ (⟨.nil, []⟩ : SpanForest.Builder).closings := by
    simp [SpanForest.Builder.closings]
  rw [build, ofSpans, ← SpanForest.Builder.fill_nil, SpanForest.Builder.fill_foldl hopened h,
    SpanForest.Builder.fill]
  rfl

/-- **The spans of tags are nested in one pass.** -/
theorem Pairing.build_spans (tags : List Tag) (width : Nat) :
    SpanTree.build width ((ofTags tags).spans width) =
      .ofSpans width ((ofTags tags).spans width) := by
  have hn := ofTags_areNested tags
  refine SpanTree.build_eq_ofSpans width fun u hu v hv hclosing => ?_
  obtain ⟨-, -, -, hpair⟩ := mem_spans_iff.mp hu
  obtain ⟨-, -, -, hpair'⟩ := mem_spans_iff.mp hv
  rw [hclosing] at hpair
  cases hclosing' : v.closing with
  | none =>
    rw [hclosing'] at hpair'
    exact hpair'.2 _ hpair
  | some d =>
    rw [hclosing'] at hpair'
    exact hn.opening_ne_closing hpair' hpair rfl

end MarkupTransfer
