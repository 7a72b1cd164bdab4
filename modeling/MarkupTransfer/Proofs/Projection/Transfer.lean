import MarkupTransfer.Projection.Transfer
import MarkupTransfer.Proofs.Projection.Layout
import MarkupTransfer.Proofs.Projection.Places
import MarkupTransfer.Proofs.Projection.Rearranged
import MarkupTransfer.Proofs.Sentence.Settle
/-!
# Carrying tags over neither loses nor invents any

The tags of a source are listed by the row of their spans. Carried over, the row is rearranged, its
tags are put at new positions in ascending order, and the spaces beside them are settled.

* `IsCarried`: tags that are those of a source in another order.
* `exists_projected`, `exists_carried`: what the tags of a translation are.
* `projectTags_carries_markup`: no tag is lost or added, pairs hold the tags they held, words stay.
-/

namespace MarkupTransfer

namespace SpanForest

/-- The tags of a row in document order, each by its index and with its position. -/
def ends : SpanForest → List (Nat × Nat)
  | nil => []
  | node s start stop inner rest =>
    (s.opening, start) :: (inner.ends ++ (s.closing.toList.map (·, stop) ++ rest.ends))

theorem map_fst_ends (row : SpanForest) : row.ends.map Prod.fst = row.indices := by
  induction row with
  | nil => rfl
  | node s start stop inner rest ihInner ihRest =>
    simp [ends, indices, ihInner, ihRest, Function.comp_def]

theorem toTags_eq_flatMap (source : List Tag) (row : SpanForest) :
    row.toTags source = row.ends.flatMap fun e => tagAt source e.1 e.2 := by
  induction row with
  | nil => rfl
  | node s start stop inner rest ihInner ihRest =>
    cases hclosing : s.closing <;> simp [toTags, ends, hclosing, ihInner, ihRest]

/-- What the tags of a row are like is told tag by tag. -/
theorem map_toTags {α : Type} {f : Tag → α} {g : Nat × Nat → α} {source : List Tag}
    {row : SpanForest} (hrow : ∀ i ∈ row.indices, i < source.length)
    (h : ∀ e : Nat × Nat, (hlt : e.1 < source.length) →
      f { source[e.1] with position := e.2 } = g e) :
    (row.toTags source).map f = row.ends.map g := by
  rw [toTags_eq_flatMap, List.map_flatMap, List.map_eq_flatMap (l := row.ends)]
  refine congrArg List.flatten (List.map_congr_left fun e he => ?_)
  have hlt : e.1 < source.length := hrow e.1 (map_fst_ends row ▸ List.mem_map_of_mem he)
  rw [tagAt, List.getElem?_eq_getElem hlt, ← h e hlt]
  rfl

/-- The tags of a row are those of a source that the row lists. -/
theorem map_bare_toTags {source : List Tag} {row : SpanForest}
    (h : ∀ i ∈ row.indices, i < source.length) :
    ((row.toTags source).map Tag.bare).map some =
      row.indices.map fun i => source[i]?.map Tag.bare := by
  rw [List.map_map, ← map_fst_ends, List.map_map]
  refine map_toTags h fun e hlt => ?_
  rw [Function.comp, Function.comp, List.getElem?_eq_getElem hlt]
  rfl

/-- The tags of a row stand where the row has them. -/
theorem map_position_toTags {source : List Tag} {row : SpanForest}
    (h : ∀ i ∈ row.indices, i < source.length) :
    (row.toTags source).map Tag.position = row.ends.map Prod.snd :=
  map_toTags h fun _ _ => rfl

end SpanForest

/-- Tags that are those of a source in another order, each of them once. -/
structure IsCarried (source tags : List Tag) (order : List Nat) : Prop where
  perm : order.Perm (List.range source.length)
  same : (tags.map Tag.bare).map some = order.map fun i => source[i]?.map Tag.bare

/-- A list read by its indices. -/
theorem map_getElem?_range {α β : Type} (f : α → β) (l : List α) :
    (List.range l.length).map (fun i => l[i]?.map f) = (l.map f).map some := by
  apply List.ext_getElem?
  intro i
  by_cases hi : i < l.length <;> simp [hi]

/-- Tags in another order are neither more nor fewer. -/
theorem IsCarried.bare_perm {source tags : List Tag} {order : List Nat}
    (h : IsCarried source tags order) : (tags.map Tag.bare).Perm (source.map Tag.bare) := by
  have hperm := h.perm.map fun i => source[i]?.map Tag.bare
  rw [← h.same, map_getElem?_range] at hperm
  simpa using hperm.filterMap id

/-- Tags in the order that they had are the same tags. -/
theorem IsCarried.bare_eq {source tags : List Tag}
    (h : IsCarried source tags (List.range source.length)) :
    tags.map Tag.bare = source.map Tag.bare := by
  apply (List.map_inj_right fun _ _ => Option.some.inj).mp
  rw [h.same, map_getElem?_range]

/-- The spans of the tags of a sentence. -/
def Sentence.spanTree (s : Sentence) : SpanTree :=
  .ofSpans s.words.length ((Pairing.ofTags s.tags).spans s.words.length)

theorem Sentence.reads_spanTree (s : Sentence) :
    SpanForest.Reads (Pairing.ofTags s.tags).pairs 0 (Pairing.ofTags s.tags).tags.length
      s.spanTree.forest :=
  SpanForest.reads_spans s.tags s.words.length

/-- A sentence with tags in ascending order, settled: its tags are the same ones, at the same
positions. -/
theorem Sentence.isSpread_settle {s : Sentence} {upper : Nat} {tags : List Tag}
    (h : SpanForest.IsSpread 0 upper tags) :
    (s.withTags tags).settle.tags.map Tag.bare = tags.map Tag.bare ∧
      (s.withTags tags).settle.tags.map Tag.position = tags.map Tag.position ∧
      SpanForest.IsSpread 0 upper (s.withTags tags).settle.tags := by
  have hsorted : (s.withTags tags).tags = tags := sortTags_eq_self h.ascending
  have hbare := bare_tags_settle (s.withTags tags)
  have hpositions := position_tags_settle (s.withTags tags)
  rw [hsorted] at hbare hpositions
  exact ⟨hbare, hpositions, h.of_positions hpositions⟩

namespace Translation

variable {t : Translation} {source : Sentence}

/-- The row of the spans of a source in a translation. -/
def projectedRow (policy : UnalignedPolicy) (source : Sentence) (reach : Reach) : SpanForest :=
  (source.spanTree.project reach.targetCount (reach.span policy)).forest

theorem rearranged_projectedRow (policy : UnalignedPolicy) (source : Sentence) (reach : Reach) :
    SpanForest.Rearranged source.spanTree.forest (projectedRow policy source reach) :=
  SpanForest.rearranged_project source.spanTree reach.targetCount (reach.span policy)

theorem isCarried_projectedTags (policy : UnalignedPolicy) (source : Sentence) (reach : Reach) :
    IsCarried (Pairing.ofTags source.tags).tags (projectedTags policy source reach)
      (projectedRow policy source reach).indices := by
  have hperm := (rearranged_projectedRow policy source reach).indices_perm.symm.trans
    source.reads_spanTree.indices_perm
  exact ⟨hperm, SpanForest.map_bare_toTags fun i hi => List.mem_range.mp (hperm.subset hi)⟩

theorem isSpread_projectedTags (policy : UnalignedPolicy) (source : Sentence) (reach : Reach) :
    SpanForest.IsSpread 0 reach.targetCount (projectedTags policy source reach) :=
  SpanForest.isSpread_toTags (Pairing.ofTags source.tags).tags
    ((SpanForest.isLaid_project source.spanTree reach.targetCount (reach.span policy)).isNested
      (Nat.zero_le _))

/-- Rearranged spans have between the tags of each pair what stood between them. -/
theorem exists_between {row : SpanForest}
    (h : SpanForest.Rearranged source.spanTree.forest row) {o c : Nat}
    (hpair : (o, c) ∈ (Pairing.ofTags source.tags).pairs) : ∃ before inside after,
      row.indices = before ++ o :: (inside ++ c :: after) ∧ (∀ i, i ∈ inside ↔ o < i ∧ i < c) ∧
      ∃ held, (o, c, held) ∈ source.spanTree.forest.enclosures ∧ held.Perm inside := by
  obtain ⟨held, hheld, hbetween⟩ :=
    source.reads_spanTree.exists_enclosure (Pairing.ofTags_areNested source.tags) hpair
  obtain ⟨inside, hinside, hperm⟩ := h.exists_enclosure hheld
  obtain ⟨before, after, horder⟩ := SpanForest.exists_of_mem_enclosures hinside
  exact ⟨before, inside, after, horder, fun i => hperm.mem_iff.symm.trans (hbetween i), held,
    hheld, hperm⟩

/-- Tags are carried over whenever there are words, tags and an alignment in range. -/
theorem projectTags_eq_ok (policy : UnalignedPolicy) (hsource : t.source = some source)
    (hwords : source.words ≠ []) (htags : source.tags ≠ []) (halign : t.alignment.toList ≠ [])
    (hrange : ∀ p ∈ t.alignment.toList,
      p.1 < source.words.length ∧ p.2 < t.sentence.words.length) :
    ∃ reach, Reach.ofAlignment t.alignment source.words.length t.sentence.words.length = .ok reach ∧
      reach.targetCount = t.sentence.words.length ∧ t.projectTags policy = .ok
      { t with sentence := (t.sentence.withTags (projectedTags policy source reach)).settle } := by
  have hreach := Reach.ofAlignment_eq_ok_iff.mpr ⟨hrange, rfl⟩
  refine ⟨_, hreach, rfl, ?_⟩
  simp [projectTags, hsource, hwords, htags, Alignment.isEmpty, halign, hreach]

/-- **What the tags of a translation are**: those of the source, listed by the row of its spans
carried over, at the ends of their intervals. -/
theorem exists_projected (policy : UnalignedPolicy) (hsource : t.source = some source)
    (hwords : source.words ≠ []) (htags : source.tags ≠ []) (halign : t.alignment.toList ≠ [])
    (hrange : ∀ p ∈ t.alignment.toList,
      p.1 < source.words.length ∧ p.2 < t.sentence.words.length) :
    ∃ reach t', Reach.ofAlignment t.alignment source.words.length t.sentence.words.length =
        .ok reach ∧ t.projectTags policy = .ok t' ∧
      IsCarried (Pairing.ofTags source.tags).tags t'.sentence.tags
        (projectedRow policy source reach).indices ∧
      SpanForest.IsSpread 0 t.sentence.words.length t'.sentence.tags ∧
      t'.sentence.tags.map Tag.position =
        (projectedTags policy source reach).map Tag.position ∧
      t'.sentence.words.map Word.spaceless = t.sentence.words.map Word.spaceless := by
  obtain ⟨reach, hreach, hcount, hok⟩ :=
    projectTags_eq_ok policy hsource hwords htags halign hrange
  have hcarried := isCarried_projectedTags policy source reach
  have hspread := isSpread_projectedTags policy source reach
  rw [hcount] at hspread
  obtain ⟨hbare, hpositions, hsettled⟩ := Sentence.isSpread_settle (s := t.sentence) hspread
  refine ⟨reach, _, hreach, hok, ⟨hcarried.perm, ?_⟩, hsettled, hpositions,
    (Sentence.spaceless_settle _).1⟩
  show (List.map Tag.bare (t.sentence.withTags _).settle.tags).map some = _
  rw [hbare]
  exact hcarried.same

/-- The tags of a translation are those of the source, listed by the row of its spans rearranged,
and stand in ascending order. Where the source has no tags, the translation has none before. -/
theorem exists_carried (policy : UnalignedPolicy) (hsource : t.source = some source)
    (hwords : source.words ≠ []) (htags : source.tags = [] → t.sentence.tags = [])
    (halign : t.alignment.toList ≠ [])
    (hrange : ∀ p ∈ t.alignment.toList,
      p.1 < source.words.length ∧ p.2 < t.sentence.words.length) :
    ∃ t' row, t.projectTags policy = .ok t' ∧
      SpanForest.Rearranged source.spanTree.forest row ∧
      IsCarried (Pairing.ofTags source.tags).tags t'.sentence.tags row.indices ∧
      SpanForest.IsSpread 0 t.sentence.words.length t'.sentence.tags ∧
      t'.sentence.words.map Word.spaceless = t.sentence.words.map Word.spaceless := by
  by_cases hnone : source.tags = []
  · have hperm := source.reads_spanTree.indices_perm
    have hempty : (Pairing.ofTags source.tags).tags = [] := by
      simp [hnone, Pairing.ofTags, Sentence.sortTags]
    have hindices : source.spanTree.forest.indices = [] := by simpa [hempty] using hperm
    refine ⟨t, source.spanTree.forest, by simp [projectTags, hsource, hnone], .refl _,
      ⟨hperm, ?_⟩, ?_, rfl⟩
    · simp [htags hnone, hindices]
    · rw [htags hnone]
      exact .nil _ _
  · obtain ⟨reach, t', -, hok, hcarried, hspread, -, hkept⟩ :=
      exists_projected policy hsource hwords hnone halign hrange
    exact ⟨t', projectedRow policy source reach, hok, rearranged_projectedRow policy source reach,
      hcarried, hspread, hkept⟩

/-- **Carrying over neither loses nor invents markup.** Each tag of the source comes once, in
ascending order of position. The two tags of a pair come in their order, and between them just the
tags that stood between them, which are those that the pair holds in the tree of spans. Words
stay. -/
theorem projectTags_carries_markup (policy : UnalignedPolicy) (hsource : t.source = some source)
    (hwords : source.words ≠ []) (htags : source.tags ≠ []) (halign : t.alignment.toList ≠ [])
    (hrange : ∀ p ∈ t.alignment.toList,
      p.1 < source.words.length ∧ p.2 < t.sentence.words.length) :
    ∃ t' order, t.projectTags policy = .ok t' ∧
      (t'.sentence.tags.map Tag.bare).Perm (source.tags.map Tag.bare) ∧
      IsCarried (Pairing.ofTags source.tags).tags t'.sentence.tags order ∧
      t'.sentence.tags.Pairwise (fun a b => a.position ≤ b.position) ∧
      (∀ tag ∈ t'.sentence.tags, tag.position ≤ t.sentence.words.length) ∧
      (∀ o c, (o, c) ∈ (Pairing.ofTags source.tags).pairs → ∃ before inside after,
        order = before ++ o :: (inside ++ c :: after) ∧ (∀ i, i ∈ inside ↔ o < i ∧ i < c) ∧
        ∃ held, (o, c, held) ∈ source.spanTree.forest.enclosures ∧ held.Perm inside) ∧
      t'.sentence.words.map Word.spaceless = t.sentence.words.map Word.spaceless := by
  obtain ⟨t', row, hok, hrearranged, hcarried, hspread, hkept⟩ :=
    exists_carried policy hsource hwords (fun h => absurd h htags) halign hrange
  have hsorted : ((Pairing.ofTags source.tags).tags.map Tag.bare).Perm
      (source.tags.map Tag.bare) := (Sentence.sortTags_perm source.tags).map Tag.bare
  exact ⟨t', row.indices, hok, hcarried.bare_perm.trans hsorted, hcarried, hspread.ascending,
    fun tag htag => (hspread.bounds tag htag).2, fun _ _ => exists_between hrearranged, hkept⟩

/-- Three words with two pairs of tags that cross. -/
def crossedSource : Sentence :=
  .ofTokens
    [.ofText none ['a'] none none, .ofText none ['b'] none none, .ofText none ['c'] none none]
    [⟨.xml, ['p'], "<p>".toList, none, none, 0, .opening, false⟩,
      ⟨.xml, ['q'], "<q>".toList, none, none, 1, .opening, false⟩,
      ⟨.xml, ['p'], "</p>".toList, none, none, 2, .closing, false⟩,
      ⟨.xml, ['q'], "</q>".toList, none, none, 3, .closing, false⟩]

/-- The three words translated in reverse. -/
def crossedTranslation : Translation :=
  .ofWords
    [.ofText none ['x'] none none, .ofText none ['y'] none none, .ofText none ['z'] none none]
    crossedSource (.ofPairs [(0, 2), (1, 1), (2, 0)])

theorem projectTags_carries_markup_crossedTranslation :
    crossedTranslation.source = some crossedSource ∧ crossedSource.words ≠ [] ∧
      crossedSource.tags ≠ [] ∧ crossedTranslation.alignment.toList ≠ [] ∧
      (∀ p ∈ crossedTranslation.alignment.toList,
        p.1 < crossedSource.words.length ∧ p.2 < crossedTranslation.sentence.words.length) ∧
      ∃ t', crossedTranslation.projectTags .nearest = .ok t' ∧
        (t'.sentence.tags.map Tag.text).Perm
          ["<p>".toList, "<q>".toList, "</p>".toList, "</q>".toList] := by
  have hsorted : crossedSource.tags.map Tag.text =
      ["<p>".toList, "<q>".toList, "</p>".toList, "</q>".toList] := by
    rw [crossedSource, Sentence.ofTokens, Sentence.sortTags_eq_self (by decide)]
    rfl
  have hwords : crossedSource.words ≠ [] := by decide
  have htags : crossedSource.tags ≠ [] := fun h => by simp [h] at hsorted
  have halign : crossedTranslation.alignment.toList ≠ [] := by decide
  have hrange : ∀ p ∈ crossedTranslation.alignment.toList,
      p.1 < crossedSource.words.length ∧ p.2 < crossedTranslation.sentence.words.length := by
    decide
  obtain ⟨t', -, hok, hperm, -⟩ :=
    projectTags_carries_markup .nearest (t := crossedTranslation) rfl hwords htags halign hrange
  refine ⟨rfl, hwords, htags, halign, hrange, t', hok, ?_⟩
  have htexts := hperm.map Tag.text
  rw [List.map_map, List.map_map] at htexts
  exact hsorted ▸ htexts

end Translation

end MarkupTransfer
