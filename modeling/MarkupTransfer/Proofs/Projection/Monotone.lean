import MarkupTransfer.Proofs.Projection.Siblings
/-!
# Monotone translations keep the order of tags

If later words are translated by later words, whatever an aligned word reaches lies behind what all
aligned words before it reach. A place then lands between what the words on its two sides reach, so
later places land further on, and so do later spans, whether they have aligned words or not.

* `nearest?_le`, `lt_nearest?`: between what a place lands.
* `nearest?_mono`, `span_mono`: later places and later spans land further on.
* `projectTags_keeps_order`: the tags of a monotone translation are in the order of the source.
-/

namespace MarkupTransfer

namespace Reach

/-- Whether every word reaches less far than the words behind it. -/
structure Ascends (r : Reach) : Prop where
  le : ∀ s w, r.word? s = some w → w.1 ≤ w.2
  lt : ∀ s s' w w', s < s' → r.word? s = some w → r.word? s' = some w' → w.2 < w'.1

theorem ascends_of_ofAlignment {a : Alignment} {sourceCount targetCount : Nat} {r : Reach}
    (h : ofAlignment a sourceCount targetCount = .ok r)
    (hmono : ∀ p ∈ a.toList, ∀ q ∈ a.toList, p.1 < q.1 → p.2 < q.2) : r.Ascends where
  le _ _ hw := (mem_of_word? h hw).2.2
  lt _ _ _ _ hlt hw hw' := hmono _ (mem_of_word? h hw).2.1 _ (mem_of_word? h hw').1 hlt

variable {r : Reach} {place place' x x' s : Nat} {w : Nat × Nat} {u v : Span}

namespace Ascends

/-- A place lands before what a word on its right reaches. -/
theorem nearest?_le (hr : r.Ascends) (h : r.nearest? place = some x) (hw : r.word? s = some w)
    (hle : place ≤ s) : x ≤ w.1 := by
  obtain ⟨k, v, hv, ⟨hk, rfl⟩ | ⟨hk, rfl⟩, hclosest⟩ := nearest?_eq_some h
  · have hnear := (hclosest s w hw).1
    rw [distance, distance, if_pos hk, if_pos hle] at hnear
    rcases Nat.lt_or_ge k s with hlt | hge
    · have := hr.lt _ _ _ _ hlt hv hw
      have := hr.le _ _ hv
      omega
    · obtain rfl : k = s := by omega
      obtain rfl : v = w := Option.some.inj (hv.symm.trans hw)
      exact Nat.le_refl _
  · exact hr.lt _ _ _ _ (Nat.lt_of_lt_of_le hk hle) hv hw

/-- A place lands behind what a word on its left reaches. -/
theorem lt_nearest? (hr : r.Ascends) (h : r.nearest? place = some x) (hw : r.word? s = some w)
    (hlt : s < place) : w.2 < x := by
  obtain ⟨k, v, hv, ⟨hk, rfl⟩ | ⟨hk, rfl⟩, hclosest⟩ := nearest?_eq_some h
  · exact hr.lt _ _ _ _ (Nat.lt_of_lt_of_le hlt hk) hw hv
  · have hnear := (hclosest s w hw).1
    rw [distance, distance, if_neg (Nat.not_le.mpr hk), if_neg (Nat.not_le.mpr hlt)] at hnear
    rcases Nat.lt_or_ge s k with hlt' | hge
    · have := hr.lt _ _ _ _ hlt' hw hv
      have := hr.le _ _ hv
      omega
    · obtain rfl : k = s := by omega
      obtain rfl : v = w := Option.some.inj (hv.symm.trans hw)
      exact Nat.lt_succ_self _

/-- **Later places land further on.** -/
theorem nearest?_mono (hr : r.Ascends) (h : r.nearest? place = some x)
    (h' : r.nearest? place' = some x') (hle : place ≤ place') : x ≤ x' := by
  obtain ⟨s, w, hw, hside, hclosest⟩ := nearest?_eq_some h
  obtain ⟨s', w', hw', hside', hclosest'⟩ := nearest?_eq_some h'
  rcases hside' with ⟨hright', rfl⟩ | ⟨hleft', rfl⟩
  · exact hr.nearest?_le h hw' (Nat.le_trans hle hright')
  · rcases hside with ⟨hright, rfl⟩ | ⟨hleft, rfl⟩
    · rcases Nat.lt_or_ge s place' with hlt | hge
      · have := hr.lt_nearest? h' hw hlt
        have := hr.le _ _ hw
        omega
      rcases Nat.lt_or_ge s' place with hlt' | hge'
      · -- Each of the two words is closer to its place than the other one, yet both lie outside.
        have hnear := (hclosest s' w' hw').1
        have hnear' := (hclosest' s w hw).2 hleft' hge
        rw [distance, distance, if_pos hright, if_neg (Nat.not_le.mpr hlt')] at hnear
        rw [distance, distance, if_neg (Nat.not_le.mpr hleft'), if_pos hge] at hnear'
        omega
      · have := hr.nearest?_le h hw' hge'
        have := hr.le _ _ hw'
        omega
    · exact hr.lt_nearest? h' hw (Nat.lt_of_lt_of_le hleft hle)

/-- **Later spans land further on.** -/
theorem span_mono (hr : r.Ascends) (hw : r.word? s = some w) (hu : u.start ≤ u.stop)
    (huv : u.stop ≤ v.start) (hv : v.start ≤ r.sourceCount) :
    (r.span .nearest u).1 ≤ (r.span .nearest v).1 := by
  have hplaceu := nearest?_eq_place hw (Nat.le_trans (Nat.le_trans hu huv) hv)
  have hplacev := nearest?_eq_place hw hv
  rcases r.span_cases .nearest u with ⟨low, high, -, hcoverage, hspan⟩ | ⟨-, hspan⟩ <;>
    rcases r.span_cases .nearest v with ⟨low', high', -, hcoverage', hspan'⟩ | ⟨-, hspan'⟩ <;>
    rw [hspan, hspan']
  · obtain ⟨⟨k, w, -, hk, hw, rfl⟩, -, -⟩ := coverage?_eq_some hcoverage
    obtain ⟨⟨k', w', hk', -, hw', rfl⟩, -, -⟩ := coverage?_eq_some hcoverage'
    have := hr.lt _ _ _ _ (Nat.lt_of_lt_of_le hk (Nat.le_trans huv hk')) hw hw'
    have := hr.le _ _ hw
    show w.1 ≤ w'.1
    omega
  · obtain ⟨⟨k, w, -, hk, hw, rfl⟩, -, -⟩ := coverage?_eq_some hcoverage
    have := hr.lt_nearest? hplacev hw (Nat.lt_of_lt_of_le hk huv)
    have := hr.le _ _ hw
    show w.1 ≤ r.place .nearest v.start
    omega
  · obtain ⟨⟨k', w', hk', -, hw', rfl⟩, -, -⟩ := coverage?_eq_some hcoverage'
    show r.place .nearest u.start ≤ w'.1
    exact hr.nearest?_le hplaceu hw' (Nat.le_trans hu (Nat.le_trans huv hk'))
  · exact hr.nearest?_mono hplaceu hplacev (Nat.le_trans hu huv)

end Ascends

end Reach

namespace Translation

open Pairing (ofTags)

variable {t : Translation} {source : Sentence}

/-- **Monotone translations keep the order of tags.** If later words are translated by later words,
the tags of the source are carried over in the order of the source. -/
theorem projectTags_keeps_order (hsource : t.source = some source)
    (hwords : source.words ≠ []) (htags : source.tags ≠ []) (halign : t.alignment.toList ≠ [])
    (hrange : ∀ p ∈ t.alignment.toList,
      p.1 < source.words.length ∧ p.2 < t.sentence.words.length)
    (hmono : ∀ p ∈ t.alignment.toList, ∀ q ∈ t.alignment.toList, p.1 < q.1 → p.2 < q.2) :
    ∃ t', t.projectTags .nearest = .ok t' ∧
      t'.sentence.tags.map Tag.bare = (Sentence.sortTags source.tags).map Tag.bare := by
  obtain ⟨reach, t', hreach, hok, hcarried, -, -, -⟩ :=
    exists_projected .nearest hsource hwords htags halign hrange
  have hascends := Reach.ascends_of_ofAlignment hreach hmono
  obtain ⟨p, hp⟩ := List.exists_mem_of_ne_nil _ halign
  obtain ⟨w, hw, -⟩ := Reach.exists_word?_of_mem hreach hp
  have horder : (projectedRow .nearest source reach).indices =
      List.range (ofTags source.tags).tags.length := by
    refine eq_range_of_pair_sublist hcarried.perm fun i j hlt hj => ?_
    refine pair_sublist_projectedRow hlt hj fun u hu v hv hui huj hvj hvi => ?_
    have hbefore := Pairing.stop_le_start hu hv (Pairing.last_lt_opening hu hv hlt hui huj hvj hvi)
    refine hascends.span_mono hw (Pairing.start_le_stop hu) hbefore ?_
    rw [Reach.sourceCount_eq hreach, (Pairing.mem_spans_iff.mp hv).2.1]
    exact Nat.min_le_right _ _
  rw [horder] at hcarried
  exact ⟨t', hok, hcarried.bare_eq⟩

/-- Three words with a pair of tags, one that stands alone and one without an end. -/
def strewnSource : Sentence :=
  .ofTokens
    [.ofText none ['a'] none none, .ofText none ['b'] none none, .ofText none ['c'] none none]
    [⟨.xml, ['p'], "<p>".toList, none, none, 0, .opening, false⟩,
      ⟨.xml, ['b', 'r'], "<br/>".toList, none, none, 1, .empty, false⟩,
      ⟨.xml, ['p'], "</p>".toList, none, none, 2, .closing, false⟩,
      ⟨.xml, ['q'], "<q>".toList, none, none, 2, .opening, false⟩]

/-- The first word translated by two words, the second one by none. -/
def strewnTranslation : Translation :=
  .ofWords
    [.ofText none ['x'] none none, .ofText none ['y'] none none, .ofText none ['z'] none none]
    strewnSource (.ofPairs [(0, 0), (0, 1), (2, 2)])

theorem projectTags_keeps_order_strewnTranslation :
    strewnTranslation.source = some strewnSource ∧ strewnSource.words ≠ [] ∧
      strewnSource.tags ≠ [] ∧ strewnTranslation.alignment.toList ≠ [] ∧
      (∀ p ∈ strewnTranslation.alignment.toList,
        p.1 < strewnSource.words.length ∧ p.2 < strewnTranslation.sentence.words.length) ∧
      (∀ p ∈ strewnTranslation.alignment.toList, ∀ q ∈ strewnTranslation.alignment.toList,
        p.1 < q.1 → p.2 < q.2) ∧
      ∃ t', strewnTranslation.projectTags .nearest = .ok t' ∧
        t'.sentence.tags.map Tag.text =
          ["<p>".toList, "<br/>".toList, "</p>".toList, "<q>".toList] := by
  have hsorted : (Sentence.sortTags strewnSource.tags).map Tag.text =
      ["<p>".toList, "<br/>".toList, "</p>".toList, "<q>".toList] := by
    rw [strewnSource, Sentence.ofTokens,
      Sentence.sortTags_eq_self (Sentence.sortTags_ascending _),
      Sentence.sortTags_eq_self (by decide)]
    rfl
  have hwords : strewnSource.words ≠ [] := by decide
  have htags : strewnSource.tags ≠ [] := by
    intro h
    simp [h, Sentence.sortTags] at hsorted
  have halign : strewnTranslation.alignment.toList ≠ [] := by decide
  have hrange : ∀ p ∈ strewnTranslation.alignment.toList,
      p.1 < strewnSource.words.length ∧ p.2 < strewnTranslation.sentence.words.length := by
    decide
  have hmono : ∀ p ∈ strewnTranslation.alignment.toList,
      ∀ q ∈ strewnTranslation.alignment.toList, p.1 < q.1 → p.2 < q.2 := by
    decide
  obtain ⟨t', hok, hsame⟩ :=
    projectTags_keeps_order (t := strewnTranslation) rfl hwords htags halign hrange hmono
  refine ⟨rfl, hwords, htags, halign, hrange, hmono, t', hok, ?_⟩
  have htexts := congrArg (List.map Tag.text) hsame
  rw [List.map_map, List.map_map] at htexts
  exact htexts.trans hsorted

end Translation

end MarkupTransfer
