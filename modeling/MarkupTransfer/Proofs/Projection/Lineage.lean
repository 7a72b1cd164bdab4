import MarkupTransfer.Proofs.Projection.Greedy
import MarkupTransfer.Proofs.Projection.Identity
import MarkupTransfer.Proofs.Projection.Stacked
/-!
# Which spans lie in which

A span lies in another one of a tree if steps from a span to the one that it lies in directly lead
there. For the tree of some tags that is the same as standing between the two tags of a pair, so the
tree is the nesting of the markup.

* `beginsIn_of_mem_links`, `transGen_of_beginsIn`: what lies in a span begins at a tag of it, and
  what begins there lies in it.
* `isBelow_iff_beginsIn`: a span lies in another one if it begins at a tag of that one.
* `spanTree_nests_as_tags`: what the tree of some tags is.
-/

namespace MarkupTransfer

open Pairing (ofTags)

namespace SpanForest

theorem mem_spans_of_mem_links {parent q : Option Span} {x : Span} {row : SpanForest}
    (h : (q, x) ∈ row.links parent) : x ∈ row.spans := by
  rw [← map_snd_links parent]
  exact List.mem_map_of_mem h

theorem mem_links_of_mem_tops {x : Span} {row : SpanForest} (h : x ∈ row.tops)
    (parent : Option Span) : (parent, x) ∈ row.links parent := by
  induction row with
  | nil => cases h
  | node s start stop inner rest _ ih =>
    rcases List.mem_cons.mp h with rfl | h
    · exact List.mem_cons_self ..
    · exact List.mem_cons_of_mem _ (List.mem_append_right _ (ih h))

variable {pairs : List (Nat × Nat)} {parent : Option Span} {x y : Span}

/-- Whether a span begins at a tag of another one behind its first tag. -/
def BeginsIn (x y : Span) : Prop := y.opening < x.opening ∧ x.opening ≤ y.last

/-- A span begins in the one that it lies in directly. -/
theorem beginsIn_of_mem_links {row : SpanForest} (hrow : row.Follows pairs)
    (hascending : row.indices.Pairwise (· < ·)) (h : (some y, x) ∈ row.links parent) :
    parent = some y ∨ y ∈ row.spans ∧ BeginsIn x y := by
  induction row generalizing parent with
  | nil => cases h
  | node s start stop inner rest ihInner ihRest =>
    obtain ⟨hinnerAscending, hrestAscending⟩ := ascending_node hascending
    simp only [spans_node, List.mem_cons, List.mem_append]
    rcases List.mem_cons.mp h with heq | h
    · exact .inl (congrArg Prod.fst heq).symm
    rcases List.mem_append.mp h with h | h
    · rcases ihInner hrow.2.1 hinnerAscending h with heq | ⟨hy, hin⟩
      · obtain rfl := Option.some.inj heq
        have hx := (mem_indices_of_mem_spans (mem_spans_of_mem_links h)).1
        have hfirst := (List.pairwise_cons.mp hascending).1 x.opening (by simp [hx])
        exact .inr ⟨.inl rfl, hfirst, ((hrow.holds hascending).1 _ (by simp [Span.block, hx])).2⟩
      · exact .inr ⟨.inr (.inl hy), hin⟩
    · rcases ihRest hrow.2.2 hrestAscending h with heq | ⟨hy, hin⟩
      · exact .inl heq
      · exact .inr ⟨.inr (.inr hy), hin⟩

/-- Whether a span lies directly in another one. -/
def IsChild (all : List (Option Span × Span)) (x y : Span) : Prop := (some y, x) ∈ all

/-- Every span of a row lies, at some depth, in the one that the whole row lies in. -/
theorem transGen_of_mem_spans {all : List (Option Span × Span)} {row : SpanForest}
    (hall : row.links (some y) ⊆ all) (hx : x ∈ row.spans) :
    Relation.TransGen (IsChild all) x y := by
  induction row generalizing y with
  | nil => cases hx
  | node s start stop inner rest ihInner ihRest =>
    obtain ⟨hs, hinner, hrest⟩ : (some y, s) ∈ all ∧ inner.links (some s) ⊆ all ∧
        rest.links (some y) ⊆ all := by simpa [links] using hall
    simp only [spans_node, List.mem_cons, List.mem_append] at hx
    rcases hx with rfl | hx | hx
    · exact .single hs
    · exact (ihInner hinner hx).tail hs
    · exact ihRest hrest hx

/-- **A span lies in the one that it begins in.** -/
theorem transGen_of_beginsIn {all : List (Option Span × Span)} {row : SpanForest}
    (hrow : row.Follows pairs) (hascending : row.indices.Pairwise (· < ·))
    (hall : row.links parent ⊆ all) (hx : x ∈ row.spans) (hy : y ∈ row.spans)
    (hin : BeginsIn x y) : Relation.TransGen (IsChild all) x y := by
  induction row generalizing parent with
  | nil => cases hx
  | node s start stop inner rest ihInner ihRest =>
    obtain ⟨hholds, hbehind⟩ := hrow.holds hascending
    obtain ⟨hinnerAscending, hrestAscending⟩ := ascending_node hascending
    obtain ⟨-, hinner, hrest⟩ : (parent, s) ∈ all ∧ inner.links (some s) ⊆ all ∧
        rest.links parent ⊆ all := by simpa [links] using hall
    have hheld : ∀ v ∈ inner.spans,
        s.opening ≤ v.opening ∧ v.opening ≤ s.last ∧ v.last ≤ s.last := by
      intro v hv
      obtain ⟨hopening, hlast⟩ := mem_indices_of_mem_spans hv
      obtain ⟨hfirst, hend⟩ := hholds v.opening (by simp [Span.block, hopening])
      exact ⟨hfirst, hend, (hholds v.last (by simp [Span.block, hlast])).2⟩
    have hlater : ∀ v ∈ rest.spans, s.last < v.opening := fun v hv =>
      hbehind _ (mem_indices_of_mem_spans hv).1
    obtain ⟨hlt, hle⟩ := hin
    simp only [spans_node, List.mem_cons, List.mem_append] at hx hy
    -- Both are in one part of the row, or the first span is `y`, or their places rule it out.
    rcases hy with rfl | hy | hy <;> rcases hx with rfl | hx | hx
    · exact absurd hlt (Nat.lt_irrefl _)
    · exact transGen_of_mem_spans hinner hx
    · exact absurd (hlater x hx) (Nat.not_lt.mpr hle)
    · exact absurd hlt (Nat.not_lt.mpr (hheld y hy).1)
    · exact ihInner hrow.2.1 hinnerAscending hinner hx hy
    · have hbefore := (hheld y hy).2.2
      have hafter := hlater x hx
      omega
    · have hself := (hholds x.opening (by simp [Span.block])).2
      have hafter := hlater y hy
      omega
    · have hbefore := (hheld x hx).2.1
      have hafter := hlater y hy
      omega
    · exact ihRest hrow.2.2 hrestAscending hrest hx hy

end SpanForest

namespace SpanTree

/-- Every span of a tree, parents before what they hold. -/
def spans (t : SpanTree) : List Span := t.forest.spans

/-- Every span of a tree with the one that it lies in directly, if there is one. -/
def links (t : SpanTree) : List (Option Span × Span) := t.forest.links none

/-- Whether a span of a tree lies in another one, at any depth. -/
def IsBelow (t : SpanTree) (x y : Span) : Prop :=
  Relation.TransGen (SpanForest.IsChild t.links) x y

/-- If no span comes twice, a span lies in what its parent is or lies in. -/
theorem isBelow_iff_of_mem_links {t : SpanTree} {parent : Option Span} {x z : Span}
    (hnodup : t.spans.Nodup) (h : (parent, x) ∈ t.links) :
    t.IsBelow x z ↔ ∃ y, parent = some y ∧ (y = z ∨ t.IsBelow y z) := by
  constructor
  · intro hbelow
    obtain ⟨y, hy, hyz⟩ := Relation.TransGen.head'_iff.mp hbelow
    have hchildren : (t.links.map Prod.snd).Nodup := by
      rwa [links, SpanForest.map_snd_links]
    have hsame : (parent, x) = (some y, x) := List.inj_on_of_nodup_map hchildren h hy rfl
    refine ⟨y, congrArg Prod.fst hsame, ?_⟩
    exact (Relation.reflTransGen_iff_eq_or_transGen.mp hyz).imp_left Eq.symm
  · rintro ⟨y, rfl, rfl | hyz⟩
    · exact .single h
    · exact hyz.head h

end SpanTree

namespace Pairing

open SpanForest (BeginsIn)

/-- The tree of the spans of tags. -/
def spanTree (p : Pairing) (width : Nat) : SpanTree := .ofSpans width (p.spans width)

variable {tags : List Tag} {width : Nat} {x y : Span}

@[simp] theorem spans_spanTree (p : Pairing) (width : Nat) :
    (p.spanTree width).spans = p.spans width :=
  SpanForest.spans_ofSpans _

theorem beginsIn_trans {z : Span} (hz : z ∈ (ofTags tags).spans width)
    (hy : y ∈ (ofTags tags).spans width) (hxz : BeginsIn x z) (hzy : BeginsIn z y) :
    BeginsIn x y :=
  ⟨Nat.lt_trans hzy.1 hxz.1,
    Nat.le_trans hxz.2 (Nat.le_of_lt (last_lt_last hy hz hzy.1 hzy.2))⟩

/-- **A span lies in another one if it begins at a tag of that one.** -/
theorem isBelow_iff_beginsIn : ((ofTags tags).spanTree width).IsBelow x y ↔
    x ∈ (ofTags tags).spans width ∧ y ∈ (ofTags tags).spans width ∧ BeginsIn x y := by
  have hrow := SpanForest.reads_spans tags width
  have hspans := SpanForest.spans_ofSpans ((ofTags tags).spans width)
  constructor
  · intro h
    have hlink : ∀ {u v}, SpanForest.IsChild ((ofTags tags).spanTree width).links u v →
        u ∈ (ofTags tags).spans width ∧ v ∈ (ofTags tags).spans width ∧ BeginsIn u v := by
      intro u v huv
      have hu := SpanForest.mem_spans_of_mem_links huv
      obtain ⟨hv, hin⟩ := (SpanForest.beginsIn_of_mem_links hrow.follows hrow.ascending
        huv).resolve_left nofun
      exact ⟨hspans ▸ hu, hspans ▸ hv, hin⟩
    induction h with
    | single huv => exact hlink huv
    | tail _ huv ih =>
      obtain ⟨hx, hu, hxu⟩ := ih
      obtain ⟨-, hv, huv⟩ := hlink huv
      exact ⟨hx, hv, beginsIn_trans hu hv hxu huv⟩
  · rintro ⟨hx, hy, hin⟩
    rw [← hspans] at hx hy
    exact SpanForest.transGen_of_beginsIn hrow.follows hrow.ascending (List.Subset.refl _) hx hy hin

/-- A span begins at a tag of another one if it begins between the two tags of a pair. -/
theorem beginsIn_iff (hx : x ∈ (ofTags tags).spans width) (hy : y ∈ (ofTags tags).spans width) :
    BeginsIn x y ↔ ∃ c, y.closing = some c ∧ y.opening < x.opening ∧ x.opening < c := by
  constructor
  · rintro ⟨hlt, hle⟩
    have hend := Nat.lt_of_le_of_lt (opening_le_last hx) (last_lt_last hy hx hlt hle)
    cases hclosing : y.closing with
    | none =>
      simp only [Span.last, hclosing, Option.getD_none] at hle
      exact absurd hlt (Nat.not_lt.mpr hle)
    | some c =>
      simp only [Span.last, hclosing, Option.getD_some] at hend
      exact ⟨c, rfl, hlt, hend⟩
  · rintro ⟨c, hclosing, hlt, hend⟩
    refine ⟨hlt, ?_⟩
    rw [Span.last, hclosing, Option.getD_some]
    exact Nat.le_of_lt hend

/-! ## The tree of some tags -/

theorem opening_of_span? {i : Nat} (h : (ofTags tags).span? width i = some x) : x.opening = i := by
  rcases span?_cases (ofTags_areNested tags) width i with
    ⟨c, start, stop, -, hspan⟩ | ⟨o, -, hspan⟩ | ⟨start, stop, -, -, hspan⟩ <;>
    rw [hspan] at h <;> cases h <;> rfl

/-- The spans of tags come in the order of their first tags. -/
theorem ascending_spans (tags : List Tag) (width : Nat) :
    ((ofTags tags).spans width).Pairwise fun x y => x.opening < y.opening := by
  refine List.pairwise_filterMap.mpr (List.pairwise_lt_range.imp fun {i j} hlt x hx y hy => ?_)
  rw [opening_of_span? hx, opening_of_span? hy]
  exact hlt

/-- No two spans of tags have the same first tag. -/
theorem nodup_openings (tags : List Tag) (width : Nat) :
    (((ofTags tags).spans width).map Span.opening).Nodup :=
  List.pairwise_map.mpr ((ascending_spans tags width).imp Nat.ne_of_lt)

/-- The spans of two tags are those of the pairs. -/
theorem exists_pair_span_iff {o c : Nat} :
    (∃ x ∈ (ofTags tags).spans width, x.opening = o ∧ x.closing = some c) ↔
      (ofTags tags).partner? o = some c ∧ o < c := by
  have hn := ofTags_areNested tags
  constructor
  · rintro ⟨x, hx, rfl, hclosing⟩
    obtain ⟨-, -, -, hpair⟩ := mem_spans_iff.mp hx
    rw [hclosing] at hpair
    exact ⟨(partner?_eq_some_iff hn).mpr (.inl hpair), (hn.bounds _ hpair).1⟩
  · rintro ⟨hpartner, hlt⟩
    exact exists_span_of_pair (pairs_of_partner? hn hpartner hlt) width

/-- The spans of one tag are those of the tags without a partner. -/
theorem exists_single_span_iff {i : Nat} :
    (∃ x ∈ (ofTags tags).spans width, x.opening = i ∧ x.closing = none) ↔
      i < (ofTags tags).tags.length ∧ (ofTags tags).partner? i = none := by
  rw [partner?_eq_none_iff]
  constructor
  · rintro ⟨x, hx, rfl, hclosing⟩
    obtain ⟨hlt, -, -, hfree⟩ := mem_spans_iff.mp hx
    rw [hclosing] at hfree
    exact ⟨hlt, fun j => ⟨hfree.1 j, hfree.2 j⟩⟩
  · rintro ⟨hlt, hfree⟩
    refine ⟨⟨i, none, min ((ofTags tags).position i) width, min ((ofTags tags).position i) width⟩,
      mem_spans_iff.mpr ⟨hlt, rfl, rfl, ?_⟩, rfl, rfl⟩
    exact ⟨fun c => (hfree c).1, fun o => (hfree o).2⟩

end Pairing

/-- A tree is the nesting of tags. It lists every pair and every tag without a partner once, in the
order of their first tags. One of them lies in another just if it begins between the two tags of
that one. Each covers the words between its tags, as far as there are words, and all of them lie
inside each other accordingly. -/
structure SpanTree.IsNestingOf (t : SpanTree) (p : Pairing) : Prop where
  ascending : t.spans.Pairwise fun x y => x.opening < y.opening
  pair_iff : ∀ {o c}, (∃ x ∈ t.spans, x.opening = o ∧ x.closing = some c) ↔
    p.partner? o = some c ∧ o < c
  single_iff : ∀ {i}, (∃ x ∈ t.spans, x.opening = i ∧ x.closing = none) ↔
    i < p.tags.length ∧ p.partner? i = none
  isBelow_iff : ∀ {x y}, t.IsBelow x y ↔ x ∈ t.spans ∧ y ∈ t.spans ∧
    ∃ c, y.closing = some c ∧ y.opening < x.opening ∧ x.opening < c
  interval : ∀ e ∈ t.toList, e.2 =
    (min (p.position e.1.opening) t.width, min (p.position e.1.last) t.width)
  bounds : ∀ e ∈ t.toList, e.2.1 ≤ e.2.2 ∧ e.2.2 ≤ t.width
  isNested : t.isNested = true

/-- **The tree that is made of the spans of tags in one pass is the nesting of the tags**, wherever
they stand: many of them may stand at one place, or behind the last word. -/
theorem Pairing.spanTree_nests_as_tags (tags : List Tag) (width : Nat) :
    SpanTree.build width ((ofTags tags).spans width) = (ofTags tags).spanTree width ∧
      ((ofTags tags).spanTree width).width = width ∧
      ((ofTags tags).spanTree width).IsNestingOf (ofTags tags) := by
  have hnodes : ∀ e ∈ ((ofTags tags).spanTree width).toList,
      e.1 ∈ (ofTags tags).spans width ∧ e.2 = (e.1.start, e.1.stop) := by
    intro e he
    rw [SpanTree.toList, spanTree, SpanTree.ofSpans, SpanForest.toList_ofSpans] at he
    obtain ⟨x, hx, rfl⟩ := List.mem_map.mp he
    exact ⟨hx, rfl⟩
  refine ⟨build_spans tags width, rfl, ?_⟩
  constructor
  case ascending =>
    rw [spans_spanTree]
    exact ascending_spans tags width
  case pair_iff =>
    rw [spans_spanTree]
    exact exists_pair_span_iff
  case single_iff =>
    rw [spans_spanTree]
    exact exists_single_span_iff
  case isBelow_iff =>
    intro x y
    rw [spans_spanTree, isBelow_iff_beginsIn]
    exact and_congr_right fun hx => and_congr_right fun hy => beginsIn_iff hx hy
  case interval =>
    intro e he
    obtain ⟨hspan, heq⟩ := hnodes e he
    obtain ⟨-, hstart, hstop, -⟩ := mem_spans_iff.mp hspan
    rw [heq, hstart, hstop]
    rfl
  case bounds =>
    intro e he
    obtain ⟨hspan, heq⟩ := hnodes e he
    obtain ⟨-, -, hstop, -⟩ := mem_spans_iff.mp hspan
    rw [heq]
    exact ⟨start_le_stop hspan, hstop ▸ Nat.min_le_right _ _⟩
  case isNested => exact SpanForest.isNested_spans tags width

end MarkupTransfer
