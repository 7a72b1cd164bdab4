import MarkupTransfer.Proofs.Projection.Separation
import MarkupTransfer.Proofs.Projection.Strays
/-!
# Pairs keep a word

A pair that covers an aligned word is sent to an interval that ends behind the last of the target
words aligned to what it covers. The spans around it are sent behind that word as well, so nothing
cuts the pair off in front of it. The pair loses its width only if it is pushed behind that word, by
what lies in front of it; a sibling that starts no later pushes it so far only if that sibling's own
interval has the word.

* `IsLaid.exists_pair`: where the two tags of a pair come to stand in a row that is laid.
* `exists_pair_projectedRow`: where the two tags of a pair of the source come to stand.
* `projectTags_keeps_width`: which pairs still cover a word.
-/

namespace MarkupTransfer

namespace SpanForest

/-- The tag that a row names stands where the row has it. -/
theorem exists_tag_of_mem_ends {row : SpanForest} {tags : List Tag}
    (hpositions : tags.map Tag.position = row.ends.map Prod.snd) (hnodup : row.indices.Nodup)
    {e : Nat × Nat} (he : e ∈ row.ends) :
    ∃ tag, tags[row.indices.idxOf e.1]? = some tag ∧ tag.position = e.2 := by
  obtain ⟨i, hi⟩ := List.mem_iff_getElem?.mp he
  have hfirst : row.indices[i]? = some e.1 := by
    rw [← map_fst_ends, List.getElem?_map, hi, Option.map_some]
  obtain ⟨hlt, hget⟩ := List.getElem?_eq_some_iff.mp hfirst
  have hidx : row.indices.idxOf e.1 = i := by
    rw [← hget]
    exact hnodup.idxOf_getElem i hlt
  have hposition := congrArg (·[i]?) hpositions
  simp only [List.getElem?_map, hi, Option.map_some] at hposition
  rw [hidx]
  exact Option.map_eq_some_iff.mp hposition

section

variable {target : Span → Nat × Nat} {cursor upper last : Nat} {row : SpanForest} {s : Span}

/-- **Where the two tags of a pair come to stand** that is sent to an interval with `last` as its
last word, if all spans around it are sent to intervals with that word. The pair ends behind the
word, unless it starts behind it, and starts no later than the word if nothing in front of the pair
lies behind the word, or if no span beside the pair is sent to an interval with the word. -/
theorem IsLaid.exists_pair (hlaid : row.IsLaid target cursor upper) (hrow : row.Separates)
    (hs : s ∈ row.spans) {c : Nat} (hclosing : s.closing = some c) (hself : s.Holds s.opening)
    (hstop : (target s).2 = last + 1) (hupper : last < upper)
    (haround : ∀ y ∈ row.spans, y.Holds s.opening → (target y).1 ≤ last ∧ last < (target y).2)
    (hsingle : ∀ y ∈ row.spans, y.closing = none → (target y).2 ≤ (target y).1) :
    ∃ before a inside b after,
      row.ends = before ++ (s.opening, a) :: (inside ++ (c, b) :: after) ∧
      b = max (last + 1) a ∧
      (cursor ≤ last → (∀ e ∈ before, e.2 ≤ last) → a ≤ last) ∧
      (cursor ≤ last → (∀ y ∈ row.spans, y.IsApart s →
        ¬ ((target y).1 ≤ last ∧ last < (target y).2)) → a ≤ last) := by
  induction row generalizing cursor upper with
  | nil => cases hs
  | node y start stop inner rest ihInner ihRest =>
    obtain ⟨hstart, hend, hsorted, hinner, hrest⟩ := hlaid
    obtain ⟨hholds, hapart, hinnerRow, hrestRow⟩ := hrow
    simp only [spans_node, List.mem_cons, List.mem_append] at hs haround hsingle ⊢
    unfold clamp at hstart hend
    rcases hs with rfl | hs | hs
    · have hlow := (haround s (.inl rfl) hself).1
      refine ⟨[], start, inner.ends, stop, rest.ends, ?_, ?_, ?_, ?_⟩
      · simp [ends, hclosing]
      · omega
      · omega
      · omega
    · -- The pair is inside the first span, which ends behind the last word of the pair.
      obtain ⟨hlow, hhigh⟩ := haround y (.inl rfl) (hholds s hs)
      obtain ⟨before, a, inside, b, after, hends, hb, hfront, hbeside⟩ :=
        ihInner hinner hinnerRow hs (by omega) (fun x hx => haround x (.inr (.inl hx)))
          fun x hx => hsingle x (.inr (.inl hx))
      refine ⟨(y.opening, start) :: before, a, inside, b,
        after ++ (y.closing.toList.map (·, stop) ++ rest.ends), by simp [ends, hends], hb,
        fun hcursor hall => ?_, fun hcursor hall => ?_⟩
      · obtain ⟨hopening, hbefore⟩ := List.forall_mem_cons.mp hall
        exact hfront hopening hbefore
      · exact hbeside (by omega) fun x hx => hall x (.inr (.inl hx))
    · -- The pair is behind the first span, which ends where its last tag stands.
      have hcut : y.closing = none → stop = start := fun hnone => by
        have := hsingle y (.inl rfl) hnone
        omega
      obtain ⟨before, a, inside, b, after, hends, hb, hfront, hbeside⟩ :=
        ihRest hrest hrestRow hs hupper (fun x hx => haround x (.inr (.inr hx)))
          fun x hx => hsingle x (.inr (.inr hx))
      refine ⟨(y.opening, start) :: (inner.ends ++ (y.closing.toList.map (·, stop) ++ before)), a,
        inside, b, after, by simp [ends, hends], hb, fun hcursor hall => ?_,
        fun hcursor hall => ?_⟩
      · refine hfront ?_ fun e he => hall e (by simp [he])
        cases hclosing' : y.closing with
        | none =>
          rw [hcut hclosing']
          exact hall (y.opening, start) (List.mem_cons_self ..)
        | some d => exact hall (d, stop) (by simp [hclosing'])
      · refine hbeside ?_ fun x hx => hall x (.inr (.inr hx))
        obtain ⟨x, hx, hmem, hxs⟩ := exists_top hrestRow hs hself
        have hbefore := hsorted x hx
        have hlow := (haround x (.inr (.inr hmem)) hxs).1
        have hy := hall y (.inl rfl) (hapart y (List.mem_cons_self ..) s hs)
        unfold clamp at hbefore
        omega

end

end SpanForest

namespace Translation

open Pairing (ofTags)

variable {t : Translation} {source : Sentence}

/-- **Where a pair that covers an aligned word comes to stand.** -/
theorem exists_pair_projectedRow (policy : UnalignedPolicy) {reach : Reach} {a : Alignment}
    {targetCount : Nat} (hreach : Reach.ofAlignment a source.words.length targetCount = .ok reach)
    {o c last : Nat} (hpair : (o, c) ∈ (ofTags source.tags).pairs)
    (hcovered : ∃ k, (ofTags source.tags).Covers o c k ∧ (k, last) ∈ a.toList)
    (hlast : ∀ p ∈ a.toList, (ofTags source.tags).Covers o c p.1 → p.2 ≤ last) :
    ∃ before a inside b after,
      (projectedRow policy source reach).ends = before ++ (o, a) :: (inside ++ (c, b) :: after) ∧
      b = max (last + 1) a ∧ ((∀ e ∈ before, e.2 ≤ last) → a ≤ last) ∧
      ((∀ y ∈ (ofTags source.tags).spans source.words.length, y.last < o ∨ c < y.opening →
        ¬ ((reach.span policy y).1 ≤ last ∧ last < (reach.span policy y).2)) → a ≤ last) := by
  obtain ⟨hrange, hwords⟩ := Reach.ofAlignment_eq_ok_iff.mp hreach
  obtain ⟨k, hcovers, hmem⟩ := hcovered
  obtain ⟨hk, hupper⟩ := hrange _ hmem
  obtain ⟨s, hs, hopening, hclosing⟩ := Pairing.exists_span_of_pair hpair source.words.length
  have hself : s.Holds s.opening := ⟨Nat.le_refl _, Pairing.opening_le_last hs⟩
  have hslast : s.last = c := by rw [Span.last, hclosing, Option.getD_some]
  have haround : ∀ y ∈ (projectedRow policy source reach).spans, y.Holds s.opening →
      (reach.span policy y).1 ≤ last ∧ last < (reach.span policy y).2 := by
    intro y hy hyo
    obtain ⟨hisPair, hstart, hstop⟩ := Pairing.covers_of_holds hpair hcovers hk
      (mem_spans_projectedRow.mp hy) (hopening ▸ hyo)
    exact Reach.span_of_mem hreach policy hisPair hstart hstop hmem
  have hsingle : ∀ y ∈ (projectedRow policy source reach).spans, y.closing = none →
      (reach.span policy y).2 ≤ (reach.span policy y).1 := by
    intro y hy hnone
    obtain ⟨-, hstart, hstop, -⟩ := Pairing.mem_spans_iff.mp (mem_spans_projectedRow.mp hy)
    have hempty : y.start = y.stop := by
      rw [hstart, hstop, Span.last, hnone, Option.getD_none]
    exact Nat.le_of_eq (Reach.span_of_closing_eq_none hnone hempty policy)
  have hstop : (reach.span policy s).2 = last + 1 := by
    obtain ⟨hisPair, hstart, hstop⟩ :=
      Pairing.covers_of_holds hpair hcovers hk hs (hopening ▸ hself)
    refine Reach.span_snd_of_mem hreach policy hisPair hstart hstop hmem
      fun p hp hfirst hbehind => ?_
    obtain ⟨-, hstart, hstop, -⟩ := Pairing.mem_spans_iff.mp hs
    rw [hopening] at hstart
    rw [hslast] at hstop
    have hcount := (hrange p hp).1
    exact hlast p hp ⟨by omega, by omega⟩
  have hlaid := SpanForest.isLaid_project source.spanTree reach.targetCount (reach.span policy)
  obtain ⟨before, a, inside, b, after, hends, hb, hfront, hbeside⟩ :=
    hlaid.exists_pair (separates_projectedRow policy source reach) (mem_spans_projectedRow.mpr hs)
      hclosing hself hstop (hwords ▸ hupper) haround hsingle
  refine ⟨before, a, inside, b, after, hopening ▸ hends, hb, hfront (Nat.zero_le _), fun hall => ?_⟩
  refine hbeside (Nat.zero_le _) fun y hy hapart => hall y (mem_spans_projectedRow.mp hy) ?_
  rwa [Span.IsApart, hopening, hslast] at hapart

/-- **A pair keeps a word unless it is pushed behind its last one.** Take a pair of the source that
covers an aligned word, and the last of all target words aligned to what it covers. In a translation
the pair still covers a word just if no tag in front of it stands behind that last word, and then it
covers that word. This is so whenever no span beside the pair is sent to an interval with the
word. -/
theorem projectTags_keeps_width (policy : UnalignedPolicy) (hsource : t.source = some source)
    (hrange : ∀ p ∈ t.alignment.toList,
      p.1 < source.words.length ∧ p.2 < t.sentence.words.length)
    {o c last : Nat} (hpair : (o, c) ∈ (ofTags source.tags).pairs)
    (hcovered : ∃ k, (ofTags source.tags).Covers o c k ∧ (k, last) ∈ t.alignment.toList)
    (hlast : ∀ p ∈ t.alignment.toList, (ofTags source.tags).Covers o c p.1 → p.2 ≤ last) :
    ∃ reach t' order opening closing,
      Reach.ofAlignment t.alignment source.words.length t.sentence.words.length = .ok reach ∧
      t.projectTags policy = .ok t' ∧
      IsCarried (ofTags source.tags).tags t'.sentence.tags order ∧
      t'.sentence.tags[order.idxOf o]? = some opening ∧
      t'.sentence.tags[order.idxOf c]? = some closing ∧
      (opening.position < closing.position ↔ ∀ (i : Nat) tag, i < order.idxOf o →
        t'.sentence.tags[i]? = some tag → tag.position ≤ last) ∧
      (opening.position < closing.position →
        opening.position ≤ last ∧ last < closing.position) ∧
      ((∀ y ∈ (ofTags source.tags).spans source.words.length, y.last < o ∨ c < y.opening →
          ¬ ((reach.span policy y).1 ≤ last ∧ last < (reach.span policy y).2)) →
        opening.position < closing.position) := by
  obtain ⟨k, -, hmem⟩ := id hcovered
  have hwords : source.words ≠ [] := List.ne_nil_of_length_pos (Nat.zero_lt_of_lt (hrange _ hmem).1)
  have htags : source.tags ≠ [] := by
    rintro hnil
    simp [ofTags, hnil, Sentence.sortTags, Pairing.pairsFrom] at hpair
  obtain ⟨reach, t', hreach, hok, hcarried, hspread, hpositions, -⟩ :=
    exists_projected policy hsource hwords htags (List.ne_nil_of_mem hmem) hrange
  obtain ⟨before, a, inside, b, after, hends, hb, hfront, hbeside⟩ :=
    exists_pair_projectedRow policy hreach hpair hcovered hlast
  have horder : (projectedRow policy source reach).indices =
      before.map Prod.fst ++ o :: (inside.map Prod.fst ++ c :: after.map Prod.fst) := by
    rw [← SpanForest.map_fst_ends, hends]
    simp
  have hstands : t'.sentence.tags.map Tag.position =
      (projectedRow policy source reach).ends.map Prod.snd := by
    rw [hpositions]
    exact SpanForest.map_position_toTags fun i hi => List.mem_range.mp (hcarried.perm.subset hi)
  have hat : ∀ e ∈ before ++ (o, a) :: (inside ++ (c, b) :: after), ∃ tag,
      t'.sentence.tags[(projectedRow policy source reach).indices.idxOf e.1]? = some tag ∧
        tag.position = e.2 := fun e he =>
    SpanForest.exists_tag_of_mem_ends hstands hcarried.nodup (hends ▸ he)
  obtain ⟨opening, hopening, rfl⟩ := hat (o, a) (by simp)
  obtain ⟨closing, hclosing, rfl⟩ := hat (c, b) (by simp)
  refine ⟨reach, t', _, opening, closing, hreach, hok, hcarried, hopening, hclosing,
    ⟨fun hwide i tag hi htag => ?_, fun hall => ?_⟩, by omega, fun hall => ?_⟩
  · have hle := hspread.position_le hi htag hopening
    omega
  · have hle := hfront fun e he => by
      obtain ⟨tag, htag, hposition⟩ := hat e (by simp [he])
      rw [← hposition]
      refine hall _ tag ?_ htag
      have hmem : e.1 ∈ before.map Prod.fst := List.mem_map_of_mem he
      rw [horder, idxOf_eq_length (horder ▸ hcarried.nodup), List.idxOf_append, if_pos hmem]
      exact List.idxOf_lt_length_iff.mpr hmem
    omega
  · have hle := hbeside hall
    omega

/-- Two pairs of tags side by side. -/
def besideTags : List Tag :=
  [⟨.xml, ['p'], "<p>".toList, none, none, 0, .opening, false⟩,
    ⟨.xml, ['p'], "</p>".toList, none, none, 2, .closing, false⟩,
    ⟨.xml, ['q'], "<q>".toList, none, none, 2, .opening, false⟩,
    ⟨.xml, ['q'], "</q>".toList, none, none, 3, .closing, false⟩]

/-- Three words, the first two in one pair of tags and the last one in another. -/
def besideSource : Sentence :=
  .ofTokens
    [.ofText none ['a'] none none, .ofText none ['b'] none none, .ofText none ['c'] none none]
    besideTags

/-- The three words, translated by three words. -/
def besideTranslation (points : List (Nat × Nat)) : Translation :=
  .ofWords
    [.ofText none ['x'] none none, .ofText none ['y'] none none, .ofText none ['z'] none none]
    besideSource (.ofPairs points)

theorem ofTags_besideSource : ofTags besideSource.tags = ⟨besideTags, [(0, 1), (2, 3)]⟩ := by
  have hsorted : Sentence.sortTags besideTags = besideTags := Sentence.sortTags_eq_self (by decide)
  rw [besideSource, Sentence.ofTokens, ofTags, hsorted, hsorted]
  rfl

theorem projectTags_keeps_width_besideTranslation :
    (besideTranslation [(0, 1), (1, 0), (2, 2)]).source = some besideSource ∧
      (∀ p ∈ (besideTranslation [(0, 1), (1, 0), (2, 2)]).alignment.toList,
        p.1 < besideSource.words.length ∧
          p.2 < (besideTranslation [(0, 1), (1, 0), (2, 2)]).sentence.words.length) ∧
      (2, 3) ∈ (ofTags besideSource.tags).pairs ∧
      (∃ k, (ofTags besideSource.tags).Covers 2 3 k ∧
        (k, 2) ∈ (besideTranslation [(0, 1), (1, 0), (2, 2)]).alignment.toList) ∧
      (∀ p ∈ (besideTranslation [(0, 1), (1, 0), (2, 2)]).alignment.toList,
        (ofTags besideSource.tags).Covers 2 3 p.1 → p.2 ≤ 2) ∧
      ∃ t' order opening closing,
        (besideTranslation [(0, 1), (1, 0), (2, 2)]).projectTags .nearest = .ok t' ∧
        IsCarried (ofTags besideSource.tags).tags t'.sentence.tags order ∧
        t'.sentence.tags[order.idxOf 2]? = some opening ∧
        t'.sentence.tags[order.idxOf 3]? = some closing ∧ opening.position < closing.position := by
  have hrange : ∀ p ∈ (besideTranslation [(0, 1), (1, 0), (2, 2)]).alignment.toList,
      p.1 < besideSource.words.length ∧
        p.2 < (besideTranslation [(0, 1), (1, 0), (2, 2)]).sentence.words.length := by
    decide
  have hpair : (2, 3) ∈ (ofTags besideSource.tags).pairs := by
    rw [ofTags_besideSource]
    decide
  have hcovered : ∃ k, (ofTags besideSource.tags).Covers 2 3 k ∧
      (k, 2) ∈ (besideTranslation [(0, 1), (1, 0), (2, 2)]).alignment.toList := by
    rw [ofTags_besideSource]
    exact ⟨2, by decide, by decide⟩
  have hlast : ∀ p ∈ (besideTranslation [(0, 1), (1, 0), (2, 2)]).alignment.toList,
      (ofTags besideSource.tags).Covers 2 3 p.1 → p.2 ≤ 2 := by
    rw [ofTags_besideSource]
    decide
  refine ⟨rfl, hrange, hpair, hcovered, hlast, ?_⟩
  obtain ⟨reach, t', order, opening, closing, hreach, hok, hcarried, hopening, hclosing, -, -,
      hwide⟩ :=
    projectTags_keeps_width .nearest (t := besideTranslation [(0, 1), (1, 0), (2, 2)]) rfl hrange
      hpair hcovered hlast
  have hwords : Reach.ofAlignment (besideTranslation [(0, 1), (1, 0), (2, 2)]).alignment
      besideSource.words.length
      (besideTranslation [(0, 1), (1, 0), (2, 2)]).sentence.words.length =
        .ok ⟨[some (1, 1), some (0, 0), some (2, 2)], 3⟩ := by
    decide
  obtain rfl := Except.ok.inj (hwords.symm.trans hreach)
  refine ⟨t', order, opening, closing, hok, hcarried, hopening, hclosing, hwide ?_⟩
  rw [ofTags_besideSource]
  decide

/-- A pair that is pushed behind its only word by the pair in front of it. -/
theorem projectTags_collapses_pair :
    (2, 3) ∈ (ofTags besideSource.tags).pairs ∧ (ofTags besideSource.tags).Covers 2 3 2 ∧
      (2, 1) ∈ (besideTranslation [(0, 0), (1, 2), (2, 1)]).alignment.toList ∧
      ((besideTranslation [(0, 0), (1, 2), (2, 1)]).projectTags .nearest).map
        (fun t => t.sentence.tags.map fun tag => (tag.text, tag.position)) =
      .ok [("<p>".toList, 0), ("</p>".toList, 3), ("<q>".toList, 3), ("</q>".toList, 3)] := by
  rw [ofTags_besideSource]
  exact ⟨by decide, by decide, by decide, by cbv⟩

end Translation

end MarkupTransfer
