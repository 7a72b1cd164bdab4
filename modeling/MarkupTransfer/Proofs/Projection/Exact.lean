import MarkupTransfer.Proofs.Projection.Lineage
import MarkupTransfer.Proofs.Projection.Width
/-!
# Spans that do not compete

A pair asks for the interval from the first to the last target word aligned to what it covers. What
it may be denied by is its parent, which asks for no less, and the siblings laid in front of it. If
no two siblings reach past each other, those in front end where it starts or before, so moving,
sorting and pushing leave every interval as it was asked for.

* `IsLaid.isAt`: a row whose spans are inside their parents and beside their siblings.
* `isHull_span`: the interval that a pair asks for.
* `areSiblings_of_mem_links`: spans that lie directly in the same one.
* `projectTags_exact`: where the tags of a translation stand.
-/

namespace MarkupTransfer

open Pairing (ofTags)

namespace SpanForest

variable {target : Span → Nat × Nat} {parent : Option Span} {cursor upper : Nat} {row : SpanForest}

/-- **Spans get the intervals that they ask for**, if these are inside those of their parents and
beside those of their siblings. `all` are the spans of the whole row with their parents. -/
theorem IsLaid.isAt {all : List (Option Span × Span)} (hlaid : row.IsLaid target cursor upper)
    (hall : row.links parent ⊆ all) (hnodup : row.spans.Nodup)
    (hbounds : ∀ u ∈ row.tops, cursor ≤ (target u).1 ∧ (target u).2 ≤ upper)
    (hwide : ∀ u ∈ row.spans, (target u).1 < (target u).2)
    (hinside : ∀ u v, (some u, v) ∈ all → (target u).1 ≤ (target v).1 ∧ (target v).2 ≤ (target u).2)
    (hbeside : ∀ q u v, (q, u) ∈ all → (q, v) ∈ all → u ≠ v →
      (target u).2 ≤ (target v).1 ∨ (target v).2 ≤ (target u).1) : row.IsAt target := by
  induction row generalizing parent cursor upper with
  | nil => exact fun e he => nomatch he
  | node s start stop inner rest ihInner ihRest =>
    obtain ⟨hstart, hstop, hsorted, hinner, hrest⟩ := hlaid
    obtain ⟨hs, hinnerAll, hrestAll⟩ : (parent, s) ∈ all ∧ inner.links (some s) ⊆ all ∧
        rest.links parent ⊆ all := by simpa [links] using hall
    rw [spans_node, List.nodup_cons, List.nodup_append] at hnodup
    obtain ⟨hout, hinnerNodup, hrestNodup, -⟩ := hnodup
    simp only [spans_node, List.forall_mem_cons, List.forall_mem_append] at hwide
    obtain ⟨hself, hinnerWide, hrestWide⟩ := hwide
    obtain ⟨⟨hlow, hhigh⟩, hrestBounds⟩ := List.forall_mem_cons.mp hbounds
    unfold clamp at hstart hstop hsorted
    have hstartEq : start = (target s).1 := by omega
    have hstopEq : stop = (target s).2 := by omega
    subst hstartEq hstopEq
    refine isAt_node.mpr ⟨rfl, ?_, ?_⟩
    · refine ihInner hinner hinnerAll hinnerNodup (fun v hv => ?_) hinnerWide
      exact hinside s v (hinnerAll (mem_links_of_mem_tops hv _))
    · refine ihRest hrest hrestAll hrestNodup (fun v hv => ⟨?_, (hrestBounds v hv).2⟩) hrestWide
      have hmem := mem_links_of_mem_tops hv parent
      have hv' := mem_spans_of_mem_links hmem
      have hne : s ≠ v := by
        rintro rfl
        exact hout (List.mem_append_right _ hv')
      have hafter := hsorted v hv
      have hvWide := hrestWide v hv'
      have hvBounds := hrestBounds v hv
      rcases hbeside parent s v hs (hrestAll hmem) hne with hle | hle
      · exact hle
      · -- Siblings come in the order of their starts: no later one ends where this one starts.
        omega

/-- The tags of a span stand at the ends of its interval. -/
theorem mem_ends_of_mem_toList {e : Span × Nat × Nat} (he : e ∈ row.toList) :
    (e.1.opening, e.2.1) ∈ row.ends ∧ ∀ c, e.1.closing = some c → (c, e.2.2) ∈ row.ends := by
  induction row with
  | nil => cases he
  | node s start stop inner rest ihInner ihRest =>
    simp only [ends, List.mem_cons, List.mem_append, List.mem_map, Option.mem_toList]
    simp only [toList, List.cons_append, List.mem_cons, List.mem_append] at he
    rcases he with rfl | he | he
    · exact ⟨.inl rfl, fun c hc => .inr (.inr (.inl ⟨c, hc, rfl⟩))⟩
    · obtain ⟨hopening, hclosing⟩ := ihInner he
      exact ⟨.inr (.inl hopening), fun c hc => .inr (.inl (hclosing c hc))⟩
    · obtain ⟨hopening, hclosing⟩ := ihRest he
      exact ⟨.inr (.inr (.inr hopening)), fun c hc => .inr (.inr (.inr (hclosing c hc)))⟩

end SpanForest

namespace Pairing

/-- The target words aligned to the words that a pair covers. -/
def reached (p : Pairing) (a : Alignment) (pair : Nat × Nat) : List Nat :=
  (a.toList.filter fun point => decide (p.Covers pair.1 pair.2 point.1)).map Prod.snd

/-- Whether all that one pair reaches lies before all that another one reaches. -/
def ReachesBefore (p : Pairing) (a : Alignment) (q r : Nat × Nat) : Prop :=
  ∀ m ∈ p.reached a q, ∀ n ∈ p.reached a r, m < n

/-- Whether two pairs are different ones inside the same pairs. -/
def AreSiblings (p : Pairing) (q r : Nat × Nat) : Prop :=
  q ≠ r ∧ ∀ e ∈ p.pairs, (e.1 < q.1 ∧ q.2 < e.2) ↔ (e.1 < r.1 ∧ r.2 < e.2)

instance (p : Pairing) (a : Alignment) (q r : Nat × Nat) : Decidable (p.ReachesBefore a q r) :=
  inferInstanceAs (Decidable (∀ m ∈ _, ∀ n ∈ _, m < n))

instance (p : Pairing) (q r : Nat × Nat) : Decidable (p.AreSiblings q r) :=
  inferInstanceAs (Decidable (_ ∧ ∀ e ∈ _, _))

/-- Pairs do not compete for target words: every tag belongs to a pair, every pair reaches target
words, and of two siblings one reaches only words before all those that the other one reaches. -/
structure IsUncontested (p : Pairing) (a : Alignment) : Prop where
  paired : ∀ i < p.tags.length, (p.partner? i).isSome = true
  reaches : ∀ q ∈ p.pairs, p.reached a q ≠ []
  apart : ∀ q ∈ p.pairs, ∀ r ∈ p.pairs, p.AreSiblings q r →
    p.ReachesBefore a q r ∨ p.ReachesBefore a r q

/-- Whether an interval goes from the first to the last target word that a pair reaches. -/
def IsHull (p : Pairing) (a : Alignment) (q : Nat × Nat) (interval : Nat × Nat) : Prop :=
  (p.reached a q).min? = some interval.1 ∧ (p.reached a q).max?.map (· + 1) = some interval.2

section

variable {p : Pairing} {a : Alignment} {q r x y : Nat × Nat} {n : Nat}

theorem mem_reached : n ∈ p.reached a q ↔ ∃ k, p.Covers q.1 q.2 k ∧ (k, n) ∈ a.toList := by
  simp [reached, and_comm]

namespace IsHull

theorem mem (h : p.IsHull a q x) (hn : n ∈ p.reached a q) : x.1 ≤ n ∧ n < x.2 := by
  obtain ⟨last, hlast, heq⟩ := Option.map_eq_some_iff.mp h.2
  rw [← heq]
  exact ⟨(List.min?_eq_some_iff.mp h.1).2 n hn,
    Nat.lt_succ_of_le ((List.max?_eq_some_iff.mp hlast).2 n hn)⟩

theorem first_mem (h : p.IsHull a q x) : x.1 ∈ p.reached a q := (List.min?_eq_some_iff.mp h.1).1

theorem exists_last (h : p.IsHull a q x) : ∃ last ∈ p.reached a q, x.2 = last + 1 := by
  obtain ⟨last, hlast, heq⟩ := Option.map_eq_some_iff.mp h.2
  exact ⟨last, (List.max?_eq_some_iff.mp hlast).1, heq.symm⟩

/-- A pair that reaches what another one reaches has its interval around that of the other one. -/
theorem inside (h : p.IsHull a q x) (h' : p.IsHull a r y)
    (hsub : p.reached a r ⊆ p.reached a q) : x.1 ≤ y.1 ∧ y.2 ≤ x.2 := by
  obtain ⟨last, hlast, heq⟩ := h'.exists_last
  have hfirst := h.mem (hsub h'.first_mem)
  have hend := h.mem (hsub hlast)
  omega

theorem before (h : p.IsHull a q x) (h' : p.IsHull a r y) (hbefore : p.ReachesBefore a q r) :
    x.2 ≤ y.1 := by
  obtain ⟨last, hlast, heq⟩ := h.exists_last
  rw [heq]
  exact hbefore last hlast y.1 h'.first_mem

end IsHull

end

/-! ## The pairs of tags -/

variable {tags : List Tag} {width : Nat} {u v : Span} {a : Alignment} {q : Nat × Nat}

/-- A pair around another one reaches what that one reaches. -/
theorem reached_subset {e : Nat × Nat} (he : e ∈ (ofTags tags).pairs) (hq : q ∈ (ofTags tags).pairs)
    (hopen : e.1 < q.1) (hclose : q.2 < e.2) :
    (ofTags tags).reached a q ⊆ (ofTags tags).reached a e := by
  have hn := ofTags_areNested tags
  intro n hm
  obtain ⟨k, ⟨hbegin, hend⟩, hpoint⟩ := mem_reached.mp hm
  obtain ⟨hlt, hcount⟩ := hn.bounds _ hq
  have hfront := position_mono (Nat.le_of_lt hopen) (Nat.lt_trans hlt hcount)
  have hback := position_mono (Nat.le_of_lt hclose) (hn.bounds _ he).2
  exact mem_reached.mpr ⟨k, ⟨Nat.le_trans hfront hbegin, Nat.lt_of_lt_of_le hend hback⟩, hpoint⟩

/-- Where every tag belongs to a pair, every span does. -/
theorem IsUncontested.pair_mem (h : (ofTags tags).IsUncontested a)
    (hu : u ∈ (ofTags tags).spans width) :
    u.closing = some u.last ∧ (u.opening, u.last) ∈ (ofTags tags).pairs := by
  obtain ⟨hlt, -, -, hpair⟩ := mem_spans_iff.mp hu
  cases hclosing : u.closing with
  | some c =>
    rw [hclosing] at hpair
    rw [Span.last, hclosing, Option.getD_some]
    exact ⟨rfl, hpair⟩
  | none =>
    rw [hclosing] at hpair
    have hfree := (partner?_eq_none_iff tags u.opening).mpr fun j => ⟨hpair.1 j, hpair.2 j⟩
    have hsome := h.paired _ hlt
    rw [hfree] at hsome
    cases hsome

/-- If there are tags at all, there are aligned words. -/
theorem IsUncontested.exists_point (h : (ofTags tags).IsUncontested a) (htags : tags ≠ []) :
    ∃ point, point ∈ a.toList := by
  have hperm : (ofTags tags).tags.Perm tags := Sentence.sortTags_perm tags
  have hlength : 0 < (ofTags tags).tags.length := by
    rw [hperm.length_eq]
    exact List.length_pos_iff.mpr htags
  obtain ⟨q, hq, -⟩ := (isSome_partner?_iff (ofTags_areNested tags)).mp (h.paired 0 hlength)
  obtain ⟨n, hn⟩ := List.exists_mem_of_ne_nil _ (h.reaches q hq)
  obtain ⟨k, -, hp⟩ := mem_reached.mp hn
  exact ⟨_, hp⟩

theorem mem_spans_of_mem_links {parent : Option Span}
    (h : (parent, u) ∈ ((ofTags tags).spanTree width).links) : u ∈ (ofTags tags).spans width := by
  have hspan : u ∈ ((ofTags tags).spanTree width).spans := SpanForest.mem_spans_of_mem_links h
  rwa [spans_spanTree] at hspan

/-- One span begins in another one if it stands between the tags of that one. -/
theorem beginsIn_iff_between (hu : u ∈ (ofTags tags).spans width)
    (hv : v ∈ (ofTags tags).spans width) :
    SpanForest.BeginsIn u v ↔ v.opening < u.opening ∧ u.last < v.last := by
  constructor
  · rintro ⟨hlt, hle⟩
    exact ⟨hlt, last_lt_last hv hu hlt hle⟩
  · rintro ⟨hlt, hend⟩
    exact ⟨hlt, Nat.le_of_lt (Nat.lt_of_le_of_lt (opening_le_last hu) hend)⟩

/-- **Spans that lie directly in the same one are siblings.** -/
theorem areSiblings_of_mem_links {parent : Option Span}
    (hu : (parent, u) ∈ ((ofTags tags).spanTree width).links)
    (hv : (parent, v) ∈ ((ofTags tags).spanTree width).links) (hne : u ≠ v) :
    (ofTags tags).AreSiblings (u.opening, u.last) (v.opening, v.last) := by
  have huSpan := mem_spans_of_mem_links hu
  have hvSpan := mem_spans_of_mem_links hv
  have hnodup : ((ofTags tags).spanTree width).spans.Nodup := by
    rw [spans_spanTree]
    exact (nodup_openings tags width).of_map
  refine ⟨fun heq => hne ?_, fun e he => ?_⟩
  · exact List.inj_on_of_nodup_map (nodup_openings tags width) huSpan hvSpan (congrArg Prod.fst heq)
  · obtain ⟨s, hs, hopening, hclosing⟩ := exists_span_of_pair he width
    have hlast : s.last = e.2 := by rw [Span.last, hclosing, Option.getD_some]
    have hbetween : ∀ {x}, (parent, x) ∈ ((ofTags tags).spanTree width).links →
        (e.1 < x.opening ∧ x.last < e.2 ↔ ((ofTags tags).spanTree width).IsBelow x s) := by
      intro x hx
      have hxSpan := mem_spans_of_mem_links hx
      rw [isBelow_iff_beginsIn, beginsIn_iff_between hxSpan hs, hopening, hlast]
      exact ⟨fun h => ⟨hxSpan, hs, h⟩, fun h => h.2.2⟩
    rw [hbetween hu, hbetween hv, SpanTree.isBelow_iff_of_mem_links hnodup hu,
      SpanTree.isBelow_iff_of_mem_links hnodup hv]

variable {r : Reach} {targetCount : Nat}

/-- **The interval that a pair asks for** goes from the first to the last target word that it
reaches. -/
theorem IsUncontested.isHull_span (h : (ofTags tags).IsUncontested a)
    (hreach : Reach.ofAlignment a width targetCount = .ok r) (policy : UnalignedPolicy)
    (hu : u ∈ (ofTags tags).spans width) :
    (ofTags tags).IsHull a (u.opening, u.last) (r.span policy u) := by
  obtain ⟨hclosing, hpair⟩ := h.pair_mem hu
  have hisPair : u.isPair = true := by rw [Span.isPair, hclosing, Option.isSome_some]
  obtain ⟨-, hstart, hstop, -⟩ := mem_spans_iff.mp hu
  -- A pair that reaches past the last word covers no more for it.
  have hcovers : ∀ {k n}, (k, n) ∈ a.toList →
      ((ofTags tags).Covers u.opening u.last k ↔ u.start ≤ k ∧ k < u.stop) := by
    intro k n hp
    have hk := ((Reach.ofAlignment_eq_ok_iff.mp hreach).1 _ hp).1
    unfold Covers
    omega
  obtain ⟨n, hn⟩ := List.exists_mem_of_ne_nil _ (h.reaches _ hpair)
  obtain ⟨k, hk, hp⟩ := mem_reached.mp hn
  obtain ⟨hfirst, hbehind⟩ := (hcovers hp).mp hk
  obtain ⟨⟨s, hs, hlt, hlow⟩, s', last, hs', hlt', hhigh, hend⟩ :=
    Reach.span_ends_of_mem hreach policy hisPair hfirst hbehind hp
  have hbounds : ∀ m ∈ (ofTags tags).reached a (u.opening, u.last),
      (r.span policy u).1 ≤ m ∧ m < (r.span policy u).2 := by
    intro m hm
    obtain ⟨k', hk', hp'⟩ := mem_reached.mp hm
    obtain ⟨hfirst', hbehind'⟩ := (hcovers hp').mp hk'
    exact Reach.span_of_mem hreach policy hisPair hfirst' hbehind' hp'
  constructor
  · exact List.min?_eq_some_iff.mpr
      ⟨mem_reached.mpr ⟨s, (hcovers hlow).mpr ⟨hs, hlt⟩, hlow⟩, fun m hm => (hbounds m hm).1⟩
  · have hmax : ((ofTags tags).reached a (u.opening, u.last)).max? = some last := by
      refine List.max?_eq_some_iff.mpr
        ⟨mem_reached.mpr ⟨s', (hcovers hhigh).mpr ⟨hs', hlt'⟩, hhigh⟩, fun m hm => ?_⟩
      have := (hbounds m hm).2
      omega
    rw [hmax, hend, Option.map_some]

end Pairing

namespace Translation

variable {t : Translation} {source : Sentence}

/-- **Spans that do not compete get the intervals that they ask for.** -/
theorem isAt_projectedRow (policy : UnalignedPolicy) {reach : Reach} {a : Alignment}
    {targetCount : Nat} (hreach : Reach.ofAlignment a source.words.length targetCount = .ok reach)
    (h : (ofTags source.tags).IsUncontested a) :
    (projectedRow policy source reach).IsAt (reach.span policy) := by
  obtain ⟨hrange, hcount⟩ := Reach.ofAlignment_eq_ok_iff.mp hreach
  have hrearranged := rearranged_projectedRow policy source reach
  have hall : (projectedRow policy source reach).links none ⊆ source.spanTree.links :=
    (hrearranged.links_perm none).symm.subset
  have hnodup : (projectedRow policy source reach).spans.Nodup := by
    refine hrearranged.spans_perm.nodup_iff.mp ?_
    rw [source.spans_spanTree]
    exact (Pairing.nodup_openings source.tags source.words.length).of_map
  have hhull : ∀ {u}, u ∈ (ofTags source.tags).spans source.words.length →
      (ofTags source.tags).IsHull a (u.opening, u.last) (reach.span policy u) := fun hu =>
    h.isHull_span hreach policy hu
  have hlaid := SpanForest.isLaid_project source.spanTree reach.targetCount (reach.span policy)
  refine hlaid.isAt hall hnodup (fun u hu => ⟨Nat.zero_le _, ?_⟩) (fun u hu => ?_)
    (fun u v hlink => ?_) fun q u v hu hv hne => ?_
  · have hmem := Pairing.mem_spans_of_mem_links (hall (SpanForest.mem_links_of_mem_tops hu _))
    obtain ⟨last, hlast, heq⟩ := (hhull hmem).exists_last
    obtain ⟨k, -, hp⟩ := Pairing.mem_reached.mp hlast
    rw [heq, hcount]
    exact (hrange _ hp).2
  · have hself := hhull (mem_spans_projectedRow.mp hu)
    exact (hself.mem hself.first_mem).2
  · have hbelow : source.spanTree.IsBelow v u := .single hlink
    obtain ⟨hv, hu, hin⟩ := Pairing.isBelow_iff_beginsIn.mp hbelow
    obtain ⟨hopen, hclose⟩ := (Pairing.beginsIn_iff_between hv hu).mp hin
    exact (hhull hu).inside (hhull hv)
      (Pairing.reached_subset (h.pair_mem hu).2 (h.pair_mem hv).2 hopen hclose)
  · have huSpan := Pairing.mem_spans_of_mem_links hu
    have hvSpan := Pairing.mem_spans_of_mem_links hv
    exact (h.apart _ (h.pair_mem huSpan).2 _ (h.pair_mem hvSpan).2
      (Pairing.areSiblings_of_mem_links hu hv hne)).imp
      ((hhull huSpan).before (hhull hvSpan)) ((hhull hvSpan).before (hhull huSpan))

/-- **Spans that do not compete are carried over exactly.** Take a source in which every tag belongs
to a pair that covers an aligned word. If of any two siblings one has all target words aligned to
what it covers before those of the other one, the tags of every pair enclose the target words from
the first to the last one aligned to what the pair covers. -/
theorem projectTags_exact (policy : UnalignedPolicy) (hsource : t.source = some source)
    (hrange : ∀ p ∈ t.alignment.toList,
      p.1 < source.words.length ∧ p.2 < t.sentence.words.length)
    (hfree : (ofTags source.tags).IsUncontested t.alignment) :
    ∃ t' order, t.projectTags policy = .ok t' ∧
      (source.tags ≠ [] → IsCarried (ofTags source.tags).tags t'.sentence.tags order) ∧
      ∀ o c, (o, c) ∈ (ofTags source.tags).pairs → ∃ opening closing,
        t'.sentence.tags[order.idxOf o]? = some opening ∧
        t'.sentence.tags[order.idxOf c]? = some closing ∧
        ((ofTags source.tags).reached t.alignment (o, c)).min? = some opening.position ∧
        ((ofTags source.tags).reached t.alignment (o, c)).max?.map (· + 1) =
          some closing.position := by
  by_cases hnone : source.tags = []
  · refine ⟨t, [], by simp [projectTags, hsource, hnone], fun htags => absurd hnone htags, ?_⟩
    simp [hnone, ofTags, Sentence.sortTags, Pairing.pairsFrom]
  obtain ⟨point, hpoint⟩ := hfree.exists_point hnone
  have hwords : source.words ≠ [] :=
    List.ne_nil_of_length_pos (Nat.zero_lt_of_lt (hrange _ hpoint).1)
  obtain ⟨reach, t', hreach, hok, hcarried, -, hpositions, -⟩ :=
    exists_projected policy hsource hwords hnone (List.ne_nil_of_mem hpoint) hrange
  have hat := isAt_projectedRow policy hreach hfree
  have hstands : t'.sentence.tags.map Tag.position =
      (projectedRow policy source reach).ends.map Prod.snd := by
    rw [hpositions]
    exact SpanForest.map_position_toTags fun i hi => List.mem_range.mp (hcarried.perm.subset hi)
  refine ⟨t', _, hok, fun _ => hcarried, fun o c hpair => ?_⟩
  obtain ⟨u, hu, rfl, hclosing⟩ := Pairing.exists_span_of_pair hpair source.words.length
  obtain ⟨e, he, rfl⟩ := List.mem_map.mp (mem_spans_projectedRow.mpr hu : u ∈ _)
  obtain ⟨hfirst, hlast⟩ := SpanForest.mem_ends_of_mem_toList he
  obtain ⟨opening, hopening, hstart⟩ :=
    SpanForest.exists_tag_of_mem_ends hstands hcarried.nodup hfirst
  obtain ⟨closing, hclosing', hstop⟩ :=
    SpanForest.exists_tag_of_mem_ends hstands hcarried.nodup (hlast c hclosing)
  have hhull := hfree.isHull_span hreach policy hu
  rw [Span.last, hclosing, Option.getD_some, hat e he] at hhull
  exact ⟨opening, closing, hopening, hclosing', hstart ▸ hhull.1, hstop ▸ hhull.2⟩

/-- Two pairs of tags inside a third one, and a fourth one behind it. -/
def siblingTags : List Tag :=
  [⟨.xml, ['a'], "<a>".toList, none, none, 0, .opening, false⟩,
    ⟨.xml, ['b'], "<b>".toList, none, none, 0, .opening, false⟩,
    ⟨.xml, ['b'], "</b>".toList, none, none, 1, .closing, false⟩,
    ⟨.xml, ['c'], "<c>".toList, none, none, 1, .opening, false⟩,
    ⟨.xml, ['c'], "</c>".toList, none, none, 2, .closing, false⟩,
    ⟨.xml, ['a'], "</a>".toList, none, none, 2, .closing, false⟩,
    ⟨.xml, ['d'], "<d>".toList, none, none, 2, .opening, false⟩,
    ⟨.xml, ['d'], "</d>".toList, none, none, 4, .closing, false⟩]

/-- Four words, two of them in pairs of their own inside a pair. -/
def siblingSource : Sentence :=
  .ofTokens
    [.ofText none ['k'] none none, .ofText none ['l'] none none, .ofText none ['m'] none none,
      .ofText none ['n'] none none]
    siblingTags

/-- The four words in reverse, the last one translated by two words. -/
def siblingTranslation : Translation :=
  .ofWords
    [.ofText none ['w'] none none, .ofText none ['x'] none none, .ofText none ['y'] none none,
      .ofText none ['z'] none none]
    siblingSource (.ofPairs [(0, 3), (1, 2), (2, 1), (3, 0), (3, 1)])

theorem ofTags_siblingSource :
    ofTags siblingSource.tags = ⟨siblingTags, [(1, 2), (3, 4), (0, 5), (6, 7)]⟩ := by
  have hsorted : Sentence.sortTags siblingTags = siblingTags :=
    Sentence.sortTags_eq_self (by decide)
  rw [siblingSource, Sentence.ofTokens, ofTags, hsorted, hsorted]
  rfl

theorem projectTags_exact_siblingTranslation :
    siblingTranslation.source = some siblingSource ∧
      (∀ p ∈ siblingTranslation.alignment.toList,
        p.1 < siblingSource.words.length ∧ p.2 < siblingTranslation.sentence.words.length) ∧
      (ofTags siblingSource.tags).IsUncontested siblingTranslation.alignment ∧
      ∃ t' order opening closing, siblingTranslation.projectTags .proportional = .ok t' ∧
        IsCarried (ofTags siblingSource.tags).tags t'.sentence.tags order ∧
        t'.sentence.tags[order.idxOf 0]? = some opening ∧
        t'.sentence.tags[order.idxOf 5]? = some closing ∧
        opening.position = 2 ∧ closing.position = 4 := by
  have hrange : ∀ p ∈ siblingTranslation.alignment.toList,
      p.1 < siblingSource.words.length ∧ p.2 < siblingTranslation.sentence.words.length := by
    decide
  have hfree : (ofTags siblingSource.tags).IsUncontested siblingTranslation.alignment := by
    rw [ofTags_siblingSource]
    exact ⟨by decide, by decide, by decide⟩
  have hpair : (0, 5) ∈ (ofTags siblingSource.tags).pairs := by
    rw [ofTags_siblingSource]
    decide
  have htags : siblingSource.tags ≠ [] := by
    intro hnone
    simp [hnone, ofTags, Sentence.sortTags, Pairing.pairsFrom] at hpair
  have hfirst : ((ofTags siblingSource.tags).reached siblingTranslation.alignment (0, 5)).min? =
      some 2 := by
    rw [ofTags_siblingSource]
    decide
  have hbehind : ((ofTags siblingSource.tags).reached siblingTranslation.alignment
      (0, 5)).max?.map (· + 1) = some 4 := by
    rw [ofTags_siblingSource]
    decide
  obtain ⟨t', order, hok, hcarried, hplaces⟩ :=
    projectTags_exact .proportional (t := siblingTranslation) rfl hrange hfree
  obtain ⟨opening, closing, hopening, hclosing, hstart, hstop⟩ := hplaces 0 5 hpair
  rw [hfirst] at hstart
  rw [hbehind] at hstop
  exact ⟨rfl, hrange, hfree, t', order, opening, closing, hok, hcarried htags, hopening,
    hclosing, (Option.some.inj hstart).symm, (Option.some.inj hstop).symm⟩

end Translation

end MarkupTransfer
