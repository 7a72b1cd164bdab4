import MarkupTransfer.Proofs.Projection.Separation
/-!
# Word for word, tags stay where they are

If every word is translated by the word at its own place, every span is sent to the interval that
it has. The spans of a sentence are nested and come in the order of their intervals, so moving them
into their parents, sorting them and pushing them behind each other leaves the row as it was, and
reading the tags off it gives back the tags of the sentence.

* `Placement.settle_placements`: a nested row sent to its own intervals is settled already.
* `isNested_spans`, `ends_spanTree`: the row of the spans of a sentence.
* `Reach.span_of_isIdentity`: where spans are sent by the alignment of each word to itself.
* `projectTags_identity`: the tags of a sentence that is translated word for word.
-/

namespace MarkupTransfer

open Pairing (ofTags)

/-- A span with the tags of another one covers the words of that one. -/
theorem Pairing.bounds_of_holds {tags : List Tag} {width : Nat} {u v : Span}
    (hu : u ∈ (ofTags tags).spans width) (hv : v ∈ (ofTags tags).spans width)
    (hopening : u.Holds v.opening) (hlast : u.Holds v.last) :
    u.start ≤ v.start ∧ v.stop ≤ u.stop := by
  have hfront : (ofTags tags).position u.opening ≤ (ofTags tags).position v.opening :=
    position_mono hopening.1 (mem_spans_iff.mp hv).1
  have hback : (ofTags tags).position v.last ≤ (ofTags tags).position u.last :=
    position_mono hlast.2 (last_lt_length hu)
  obtain ⟨-, hstart, hstop, -⟩ := mem_spans_iff.mp hu
  obtain ⟨-, hstart', hstop', -⟩ := mem_spans_iff.mp hv
  omega

/-! ## Rows that are settled already -/

namespace SpanForest

/-- Whether every span of a row has the interval that `target` gives it. -/
def IsAt (target : Span → Nat × Nat) (row : SpanForest) : Prop :=
  ∀ e ∈ row.toList, target e.1 = e.2

variable {target : Span → Nat × Nat} {lower upper : Nat}

theorem isAt_node {s : Span} {start stop : Nat} {inner rest : SpanForest} :
    (node s start stop inner rest).IsAt target ↔
      target s = (start, stop) ∧ inner.IsAt target ∧ rest.IsAt target := by
  simp only [IsAt, toList, List.cons_append, List.forall_mem_cons, List.forall_mem_append]

namespace Placement

/-- The siblings of a nested row lie between the bounds of the row, each behind the ones in front of
it. -/
theorem bounds_placements {row : SpanForest} (h : row.isNested lower upper = true)
    (hat : row.IsAt target) :
    (∀ p ∈ row.placements target, lower ≤ p.start ∧ p.start ≤ p.stop ∧ p.stop ≤ upper) ∧
      (row.placements target).Pairwise fun p q => p.start ≤ q.start := by
  induction row generalizing lower with
  | nil => simp [placements]
  | node s start stop inner rest _ ih =>
    simp only [isNested, Bool.and_eq_true, decide_eq_true_eq] at h
    obtain ⟨⟨⟨⟨hlower, hle⟩, hupper⟩, -⟩, hnested⟩ := h
    obtain ⟨hs, -, hrestAt⟩ := isAt_node.mp hat
    obtain ⟨hbounds, hsorted⟩ := ih hnested hrestAt
    simp only [placements, hs, List.forall_mem_cons, List.pairwise_cons]
    refine ⟨⟨⟨hlower, hle, hupper⟩, fun p hp => ?_⟩, fun p hp => ?_, hsorted⟩
    · obtain ⟨hstart, hrest⟩ := hbounds p hp
      exact ⟨by omega, hrest⟩
    · have := (hbounds p hp).1
      show start ≤ p.start
      omega

theorem clampTo_eq_self {p : Placement} (hlower : lower ≤ p.start) (hle : p.start ≤ p.stop)
    (hupper : p.stop ≤ upper) : p.clampTo lower upper = p := by
  have hstart : clamp lower upper p.start = p.start := by
    unfold clamp
    omega
  have hstop : clamp p.start upper p.stop = p.stop := by
    unfold clamp
    omega
  simp only [clampTo, hstart, hstop]

/-- Siblings between the bounds of their parent, in order, need not be moved or sorted. -/
theorem settle_eq_layOut {row : SpanForest} (h : row.isNested lower upper = true)
    (hat : row.IsAt target) :
    settle lower upper (row.placements target) = layOut lower (row.placements target) := by
  obtain ⟨hbounds, hsorted⟩ := bounds_placements h hat
  have hclamped : (row.placements target).map (clampTo lower upper) = row.placements target :=
    (List.map_congr_left fun p hp => clampTo_eq_self (hbounds p hp).1 (hbounds p hp).2.1
      (hbounds p hp).2.2).trans (List.map_id _)
  rw [settle, hclamped, List.mergeSort_of_pairwise (by simpa using hsorted)]

/-- **A nested row that is sent to its own intervals is settled already.** -/
theorem settle_placements {row : SpanForest} (h : row.isNested lower upper = true)
    (hat : row.IsAt target) : settle lower upper (row.placements target) = row := by
  rw [settle_eq_layOut h hat]
  induction row generalizing lower upper with
  | nil => rfl
  | node s start stop inner rest ihInner ihRest =>
    simp only [isNested, Bool.and_eq_true, decide_eq_true_eq] at h
    obtain ⟨⟨⟨⟨hlower, hle⟩, hupper⟩, hinner⟩, hrest⟩ := h
    obtain ⟨hs, hinnerAt, hrestAt⟩ := isAt_node.mp hat
    have hfill : settle start stop (inner.placements target) = inner := by
      rw [settle_eq_layOut hinner hinnerAt, ihInner hinner hinnerAt]
    simp only [placements, layOut, hs, Nat.max_eq_left hlower, Nat.max_eq_left hle, hfill,
      ihRest hrest hrestAt]

end Placement

/-! ## The row of the spans of a sentence -/

theorem toList_splitAt (c : Nat) (row : SpanForest) :
    (row.splitAt c).1.toList ++ (row.splitAt c).2.toList = row.toList := by
  induction row with
  | nil => rfl
  | node s start stop inner rest _ ih =>
    rw [splitAt]
    split
    · simp only [toList, List.cons_append, List.append_assoc, ih]
    · rfl

/-- A row that is made of spans has each of them at the interval of the words it covers. -/
theorem toList_ofSpans (l : List Span) :
    (ofSpans l).toList = l.map fun s => (s, s.start, s.stop) := by
  induction l with
  | nil => rfl
  | cons s rest ih =>
    rw [ofSpans, enclose]
    cases s.closing with
    | none => simp [toList, ih]
    | some c => simp [toList, toList_splitAt, ih]

variable {pairs : List (Nat × Nat)} {tags : List Tag} {width : Nat}

/-- A row of the spans of a sentence, each at the interval of the words it covers, is nested. -/
theorem Follows.isNested {row : SpanForest} (hrow : row.Follows pairs)
    (hascending : row.indices.Pairwise (· < ·)) (hat : row.IsAt fun s => (s.start, s.stop))
    (hspans : ∀ s ∈ row.spans, s ∈ (ofTags tags).spans width)
    (hbounds : ∀ s ∈ row.spans, lower ≤ s.start ∧ s.stop ≤ upper) :
    row.isNested lower upper = true := by
  induction row generalizing lower upper with
  | nil => rfl
  | node s start stop inner rest ihInner ihRest =>
    obtain ⟨hholds, hbehind⟩ := hrow.holds hascending
    obtain ⟨hinnerAscending, hrestAscending⟩ := ascending_node hascending
    obtain ⟨hs, hinnerAt, hrestAt⟩ := isAt_node.mp hat
    obtain ⟨rfl, rfl⟩ := Prod.mk.inj hs
    simp only [spans_node, List.forall_mem_cons, List.forall_mem_append] at hspans hbounds
    obtain ⟨hself, hinnerSpans, hrestSpans⟩ := hspans
    obtain ⟨⟨hlower, hupper⟩, -, hrestBounds⟩ := hbounds
    have hinner : inner.isNested s.start s.stop = true := by
      refine ihInner hrow.2.1 hinnerAscending hinnerAt hinnerSpans fun v hv => ?_
      have hinside : ∀ i ∈ inner.indices, s.Holds i := fun i hi =>
        hholds i (by simp [Span.block, hi])
      obtain ⟨hopening, hlast⟩ := mem_indices_of_mem_spans hv
      exact Pairing.bounds_of_holds hself (hinnerSpans v hv) (hinside _ hopening) (hinside _ hlast)
    have hrest : rest.isNested s.stop upper = true := by
      refine ihRest hrow.2.2 hrestAscending hrestAt hrestSpans fun w hw =>
        ⟨?_, (hrestBounds w hw).2⟩
      exact Pairing.stop_le_start hself (hrestSpans w hw)
        (hbehind _ (mem_indices_of_mem_spans hw).1)
    simp only [SpanForest.isNested, hinner, hrest, Bool.and_true, Bool.and_eq_true,
      decide_eq_true_eq]
    exact ⟨⟨hlower, Pairing.start_le_stop hself⟩, hupper⟩

theorem isAt_ofSpans (l : List Span) : (ofSpans l).IsAt fun u => (u.start, u.stop) := by
  intro e he
  rw [toList_ofSpans] at he
  obtain ⟨u, -, rfl⟩ := List.mem_map.mp he
  rfl

/-- **The spans of tags are nested**, and none reaches behind the last word. -/
theorem isNested_spans (tags : List Tag) (width : Nat) :
    (ofSpans ((ofTags tags).spans width)).isNested 0 width = true := by
  have hrow := reads_spans tags width
  have hspans : ∀ u ∈ (ofSpans ((ofTags tags).spans width)).spans,
      u ∈ (ofTags tags).spans width := by
    rw [spans_ofSpans]
    exact fun u hu => hu
  refine hrow.follows.isNested hrow.ascending (isAt_ofSpans _) hspans fun u hu =>
    ⟨Nat.zero_le _, ?_⟩
  obtain ⟨-, -, hstop, -⟩ := Pairing.mem_spans_iff.mp (hspans u hu)
  rw [hstop]
  exact Nat.min_le_right _ _

/-- The tags of a row at the intervals of its spans. -/
theorem snd_of_mem_ends {row : SpanForest} (hat : row.IsAt fun s => (s.start, s.stop))
    (hspans : ∀ s ∈ row.spans, s ∈ (ofTags tags).spans width) :
    ∀ e ∈ row.ends, e.2 = min ((ofTags tags).position e.1) width := by
  induction row with
  | nil => simp [ends]
  | node s start stop inner rest ihInner ihRest =>
    obtain ⟨hs, hinnerAt, hrestAt⟩ := isAt_node.mp hat
    obtain ⟨rfl, rfl⟩ := Prod.mk.inj hs
    simp only [spans_node, List.forall_mem_cons, List.forall_mem_append] at hspans
    obtain ⟨hself, hinnerSpans, hrestSpans⟩ := hspans
    obtain ⟨-, hstart, hstop, -⟩ := Pairing.mem_spans_iff.mp hself
    simp only [ends, List.forall_mem_cons, List.forall_mem_append, List.forall_mem_map,
      Option.mem_toList]
    refine ⟨hstart, ihInner hinnerAt hinnerSpans, fun c hc => ?_, ihRest hrestAt hrestSpans⟩
    rw [hstop, Span.last, hc, Option.getD_some]

end SpanForest

namespace Sentence

open SpanForest

variable (s : Sentence)

theorem isAt_spanTree : s.spanTree.forest.IsAt fun u => (u.start, u.stop) := isAt_ofSpans _

theorem mem_spans_of_mem_spanTree :
    ∀ u ∈ s.spanTree.forest.spans, u ∈ (ofTags s.tags).spans s.words.length := by
  rw [s.spans_spanTree]
  exact fun u hu => hu

/-- **The spans of a sentence are nested**, and none reaches behind the last word. -/
theorem isNested_spanTree : s.spanTree.forest.isNested 0 s.words.length = true :=
  isNested_spans s.tags s.words.length

/-- **The row of the spans of a sentence lists its tags in order**, each at its position. -/
theorem ends_spanTree : s.spanTree.forest.ends =
    (List.range (ofTags s.tags).tags.length).map fun i =>
      (i, min ((ofTags s.tags).position i) s.words.length) := by
  have hindices : s.spanTree.forest.ends.map Prod.fst =
      List.range (ofTags s.tags).tags.length := by
    rw [map_fst_ends]
    exact s.reads_spanTree.indices_perm.eq_of_pairwise
      (fun a b _ _ hab hba => absurd hab (Nat.lt_asymm hba)) s.reads_spanTree.ascending
      List.pairwise_lt_range
  rw [← hindices, List.map_map]
  refine (List.map_id _).symm.trans (List.map_congr_left fun e he => ?_)
  exact Prod.ext rfl (snd_of_mem_ends s.isAt_spanTree s.mem_spans_of_mem_spanTree e he)

end Sentence

/-! ## Where spans are sent -/

/-- The alignment of each of some words to the word at its own place. -/
def Alignment.identity (count : Nat) : Alignment :=
  .ofPairs ((List.range count).map fun i => (i, i))

theorem Alignment.mem_identity {count : Nat} {p : Nat × Nat} :
    p ∈ (identity count).toList ↔ p.1 = p.2 ∧ p.1 < count := by
  obtain ⟨s, t⟩ := p
  simp only [identity, mem_ofPairs, List.mem_map, List.mem_range, Prod.mk.injEq]
  constructor
  · rintro ⟨i, hi, rfl, rfl⟩
    exact ⟨rfl, hi⟩
  · rintro ⟨rfl, hs⟩
    exact ⟨s, hs, rfl, rfl⟩

namespace Reach

/-- Whether each of some words reaches the word at its own place and no other. -/
structure IsIdentity (r : Reach) (count : Nat) : Prop where
  sourceCount_eq : r.sourceCount = count
  targetCount_eq : r.targetCount = count
  word?_eq : ∀ s < count, r.word? s = some (s, s)

variable {r : Reach} {count place : Nat} {u : Span}

theorem isIdentity_of_ofAlignment (h : ofAlignment (.identity count) count count = .ok r) :
    r.IsIdentity count where
  sourceCount_eq := sourceCount_eq h
  targetCount_eq := by rw [(ofAlignment_eq_ok_iff.mp h).2]
  word?_eq s hs := by
    obtain ⟨w, hw, -⟩ := exists_word?_of_mem h (Alignment.mem_identity.mpr ⟨rfl, hs⟩ : (s, s) ∈ _)
    obtain ⟨hfirst, hlast, -⟩ := mem_of_word? h hw
    have hlow : s = w.1 := (Alignment.mem_identity.mp hfirst).1
    have hhigh : s = w.2 := (Alignment.mem_identity.mp hlast).1
    rw [hw]
    exact congrArg some (Prod.ext hlow.symm hhigh.symm)

namespace IsIdentity

theorem eq_of_word? (hr : r.IsIdentity count) {s : Nat} {w : Nat × Nat}
    (hw : r.word? s = some w) : s < count ∧ w = (s, s) := by
  have hs : s < count := hr.sourceCount_eq ▸ lt_sourceCount_of_word? hw
  rw [hr.word?_eq s hs] at hw
  exact ⟨hs, (Option.some.inj hw).symm⟩

/-- The closest word to a place is the one behind it, or the last one. -/
theorem nearest?_eq (hr : r.IsIdentity count) {x : Nat} (h : r.nearest? place = some x)
    (hplace : place ≤ count) : x = place := by
  obtain ⟨s, w, hw, hside, hclosest⟩ := nearest?_eq_some h
  obtain ⟨hs, rfl⟩ := hr.eq_of_word? hw
  rcases Nat.lt_or_eq_of_le hplace with hlt | rfl
  · obtain ⟨hnear, hstrict⟩ := hclosest place _ (hr.word?_eq place hlt)
    rw [distance, distance, if_pos (Nat.le_refl place)] at hnear hstrict
    rcases hside with ⟨hright, hx⟩ | ⟨hleft, -⟩
    · rw [if_pos hright] at hnear
      simp only at hx
      omega
    · have := hstrict hleft (Nat.le_refl place)
      omega
  · have hlast : place - 1 < place := by omega
    have hnear := (hclosest (place - 1) _ (hr.word?_eq _ hlast)).1
    rw [distance, distance, if_neg (by omega), if_neg (by omega)] at hnear
    rcases hside with ⟨hright, -⟩ | ⟨-, hx⟩
    · omega
    · simp only at hx
      omega

/-- In a sentence as long as its source a place keeps its share. -/
theorem proportional_eq (hr : r.IsIdentity count) (hcount : 0 < count) (hplace : place ≤ count) :
    r.proportional place = place := by
  have hshare : (2 * place * count + count) / (2 * count) = place := by
    rw [Nat.mul_right_comm, Nat.mul_comm (2 * count) place]
    rw [Nat.add_comm, Nat.add_mul_div_right _ _ (by omega), Nat.div_eq_of_lt (by omega),
      Nat.zero_add]
  rw [proportional, hr.sourceCount_eq, hr.targetCount_eq, if_neg (by omega), hshare,
    Nat.min_eq_left hplace]

/-- **A place is sent to itself.** -/
theorem place_eq (hr : r.IsIdentity count) (policy : UnalignedPolicy) (hcount : 0 < count)
    (hplace : place ≤ count) : r.place policy place = place := by
  cases policy with
  | proportional => exact hr.proportional_eq hcount hplace
  | nearest =>
    refine hr.nearest?_eq (nearest?_eq_place (hr.word?_eq 0 hcount) ?_) hplace
    rwa [hr.sourceCount_eq]

/-- **A span is sent to itself.** -/
theorem span_eq (hr : r.IsIdentity count) (policy : UnalignedPolicy) (hcount : 0 < count)
    (hle : u.start ≤ u.stop) (hstop : u.stop ≤ count)
    (hsingle : u.isPair = false → u.start = u.stop) :
    r.span policy u = (u.start, u.stop) := by
  rcases r.span_cases policy u with ⟨low, high, -, hcoverage, hspan⟩ | ⟨hnone, hspan⟩
  · obtain ⟨⟨s, w, hs, hlt, hw, hlow⟩, ⟨s', w', -, hlt', hw', hhigh⟩, hall⟩ :=
      coverage?_eq_some hcoverage
    obtain ⟨-, rfl⟩ := hr.eq_of_word? hw
    obtain ⟨-, rfl⟩ := hr.eq_of_word? hw'
    have hfirst := (hall u.start _ (Nat.le_refl _) (by omega) (hr.word?_eq _ (by omega))).1
    have hlast := (hall (u.stop - 1) _ (by omega) (by omega) (hr.word?_eq _ (by omega))).2
    simp only at hlow hhigh hfirst hlast
    rw [hspan]
    exact Prod.ext (show low = u.start by omega) (show high + 1 = u.stop by omega)
  · have hempty : u.start = u.stop := by
      cases hpair : u.isPair with
      | false => exact hsingle hpair
      | true =>
        refine Nat.le_antisymm hle (Nat.le_of_not_lt fun hlt => ?_)
        have hword := hnone hpair u.start (Nat.le_refl _) hlt
        rw [hr.word?_eq _ (Nat.lt_of_lt_of_le hlt hstop)] at hword
        cases hword
    have hself : u.isEmpty = true := beq_iff_eq.mpr hempty
    rw [hspan, ends, hself, if_pos rfl, hr.place_eq policy hcount (Nat.le_trans hle hstop),
      ← hempty]

end IsIdentity

end Reach

/-! ## The tags of the translation -/

/-- A tag that stands behind no more than some words. -/
def Tag.within (width : Nat) (t : Tag) : Tag := { t with position := min t.position width }

/-- A tag that stands alone covers no words. -/
theorem Pairing.start_eq_stop_of_single {tags : List Tag} {width : Nat} {u : Span}
    (hu : u ∈ (ofTags tags).spans width) (hsingle : u.isPair = false) : u.start = u.stop := by
  obtain ⟨-, hstart, hstop, -⟩ := mem_spans_iff.mp hu
  have hclosing : u.closing = none := by simpa [Span.isPair] using hsingle
  rw [hstart, hstop, Span.last, hclosing, Option.getD_none]

/-- **The row of the spans of a sentence has its tags**, none behind the last word. -/
theorem Sentence.toTags_spanTree (s : Sentence) :
    s.spanTree.forest.toTags (ofTags s.tags).tags =
      (sortTags s.tags).map (Tag.within s.words.length) := by
  apply (List.map_inj_right fun _ _ => Option.some.inj).mp
  have hrow : ∀ i ∈ s.spanTree.forest.indices, i < (ofTags s.tags).tags.length :=
    fun i => s.reads_spanTree.mem_iff_lt.mp
  calc (s.spanTree.forest.toTags (ofTags s.tags).tags).map some
      = s.spanTree.forest.ends.map fun e =>
          (ofTags s.tags).tags[e.1]?.map fun t => { t with position := e.2 } := by
        refine SpanForest.map_toTags hrow fun e hlt => ?_
        rw [List.getElem?_eq_getElem hlt, Option.map_some]
    _ = (List.range (ofTags s.tags).tags.length).map fun i =>
          (ofTags s.tags).tags[i]?.map (Tag.within s.words.length) := by
        rw [s.ends_spanTree, List.map_map]
        refine List.map_congr_left fun i hi => ?_
        simp [Pairing.position, Tag.within, List.getElem?_eq_getElem (List.mem_range.mp hi)]
    _ = _ := map_getElem?_range _ _

namespace Translation

variable {t : Translation} {source : Sentence} {policy : UnalignedPolicy}

/-- **Word for word, the tags of a source are put where they stood.** -/
theorem projectedTags_eq {reach : Reach} (hr : reach.IsIdentity source.words.length)
    (hwords : source.words ≠ []) : projectedTags policy source reach =
      (Sentence.sortTags source.tags).map (Tag.within source.words.length) := by
  have hcount : 0 < source.words.length := List.length_pos_iff.mpr hwords
  have hat : source.spanTree.forest.IsAt (reach.span policy) := by
    intro e he
    have hu := source.mem_spans_of_mem_spanTree e.1 (List.mem_map_of_mem he)
    obtain ⟨-, -, hstop, -⟩ := Pairing.mem_spans_iff.mp hu
    have hself := hr.span_eq policy hcount (Pairing.start_le_stop hu)
      (hstop ▸ Nat.min_le_right _ _) (Pairing.start_eq_stop_of_single hu)
    exact hself.trans (source.isAt_spanTree e he)
  have hrow : (source.spanTree.project source.words.length (reach.span policy)).forest =
      source.spanTree.forest :=
    SpanForest.Placement.settle_placements source.isNested_spanTree hat
  calc projectedTags policy source reach
      = source.spanTree.forest.toTags (ofTags source.tags).tags := by
        rw [projectedTags, hr.targetCount_eq]
        exact congrArg (SpanForest.toTags _) hrow
    _ = _ := source.toTags_spanTree

/-- What becomes of a translation word for word. -/
theorem projectTags_eq_ok_of_identity (policy : UnalignedPolicy) (hsource : t.source = some source)
    (hwords : source.words ≠ []) (htags : source.tags ≠ [])
    (hcount : t.sentence.words.length = source.words.length)
    (halign : t.alignment = .identity source.words.length) :
    t.projectTags policy = .ok { t with
      sentence := (t.sentence.withTags
        ((Sentence.sortTags source.tags).map (Tag.within source.words.length))).settle } := by
  have hrange : ∀ p ∈ t.alignment.toList,
      p.1 < source.words.length ∧ p.2 < t.sentence.words.length := by
    intro p hp
    rw [halign] at hp
    obtain ⟨hsame, hlt⟩ := Alignment.mem_identity.mp hp
    exact ⟨hlt, by omega⟩
  have hpoint : (0, 0) ∈ t.alignment.toList := by
    rw [halign]
    exact Alignment.mem_identity.mpr ⟨rfl, List.length_pos_iff.mpr hwords⟩
  obtain ⟨reach, hreach, -, hok⟩ := projectTags_eq_ok policy hsource hwords htags
    (List.ne_nil_of_mem hpoint) hrange
  rw [halign, hcount] at hreach
  rw [hok, projectedTags_eq (Reach.isIdentity_of_ofAlignment hreach) hwords]

/-- **Word for word, tags stay where they are.** If a sentence is translated by as many words, each
of them aligned to the one at its own place, its tags are carried over in document order, whatever
they are, and stand where they stood, or behind the last word if they stood further on. -/
theorem projectTags_identity (policy : UnalignedPolicy) (hsource : t.source = some source)
    (hwords : source.words ≠ []) (htags : source.tags = [] → t.sentence.tags = [])
    (hcount : t.sentence.words.length = source.words.length)
    (halign : t.alignment = .identity source.words.length) :
    ∃ t', t.projectTags policy = .ok t' ∧
      t'.sentence.tags.map Tag.spaceless =
        (Sentence.sortTags source.tags).map fun tag =>
          { tag.spaceless with position := min tag.position source.words.length } := by
  by_cases hnone : source.tags = []
  · refine ⟨t, by simp [projectTags, hsource, hnone], ?_⟩
    simp [htags hnone, hnone, Sentence.sortTags]
  · refine ⟨_, projectTags_eq_ok_of_identity policy hsource hwords hnone hcount halign, ?_⟩
    have hascending : ((Sentence.sortTags source.tags).map
        (Tag.within source.words.length)).Pairwise fun a b => a.position ≤ b.position := by
      refine List.pairwise_map.mpr
        ((Sentence.sortTags_ascending source.tags).imp fun {a b} hle => ?_)
      show min a.position _ ≤ min b.position _
      omega
    rw [(Sentence.spaceless_settle _).2, Sentence.withTags, Sentence.sortTags_eq_self hascending,
      List.map_map]
    rfl

/-- Two words with tags of every kind: ends without a beginning and beginnings without an end, a
pair around nothing, a declaration, a tabulator and a tag behind the end. -/
def assortedSource : Sentence :=
  .ofTokens
    [.ofText none ['a'] none (some .blank), .ofText none ['b'] (some .blank) none]
    [⟨.xml, ['q'], "</q>".toList, none, none, 0, .closing, false⟩,
      ⟨.xml, ['-', '-'], "<!--".toList, none, none, 0, .opening, false⟩,
      ⟨.xml, ['E'], "<!E x>".toList, none, none, 1, .opening, true⟩,
      ⟨.xml, ['i'], "<i>".toList, none, none, 1, .opening, false⟩,
      ⟨.xml, ['i'], "</i>".toList, none, none, 1, .closing, false⟩,
      ⟨.whitespace, ['T', 'A', 'B'], ['\t'], none, none, 1, .empty, false⟩,
      ⟨.xml, ['q'], "<q>".toList, none, none, 2, .opening, false⟩,
      ⟨.xml, ['b', 'r'], "<br/>".toList, none, none, 7, .empty, false⟩]

/-- Two words for two words. -/
def assortedTranslation : Translation :=
  .ofWords [.ofText none ['x'] none none, .ofText none ['y'] none none] assortedSource
    (.identity 2)

theorem projectTags_identity_assortedTranslation :
    assortedTranslation.source = some assortedSource ∧ assortedSource.words ≠ [] ∧
      (assortedSource.tags = [] → assortedTranslation.sentence.tags = []) ∧
      assortedTranslation.sentence.words.length = assortedSource.words.length ∧
      assortedTranslation.alignment = .identity assortedSource.words.length ∧
      ∃ t', assortedTranslation.projectTags .proportional = .ok t' ∧
        t'.sentence.tags.map (fun tag => (tag.text, tag.position)) =
          [("</q>".toList, 0), ("<!--".toList, 0), ("<!E x>".toList, 1), ("<i>".toList, 1),
            ("</i>".toList, 1), (['\t'], 1), ("<q>".toList, 2), ("<br/>".toList, 2)] := by
  have hwords : assortedSource.words ≠ [] := by decide
  have hnone : assortedSource.tags = [] → assortedTranslation.sentence.tags = [] := fun _ => by
    simp [assortedTranslation, ofWords, Sentence.ofTokens, Sentence.sortTags]
  obtain ⟨t', hok, hsame⟩ := projectTags_identity (t := assortedTranslation) .proportional rfl
    hwords hnone rfl rfl
  refine ⟨rfl, hwords, hnone, rfl, rfl, t', hok, ?_⟩
  have hplaces := congrArg (List.map fun tag : Tag => (tag.text, tag.position)) hsame
  rw [assortedSource, Sentence.ofTokens, Sentence.sortTags_eq_self (Sentence.sortTags_ascending _),
    Sentence.sortTags_eq_self (by decide), List.map_map, List.map_map] at hplaces
  exact hplaces

end Translation

end MarkupTransfer
