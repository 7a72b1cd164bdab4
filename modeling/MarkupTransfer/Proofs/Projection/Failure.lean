import Mathlib
import MarkupTransfer.Projection.InPlace
import MarkupTransfer.Proofs.Alignment
import MarkupTransfer.Proofs.Projection.Places
/-!
# When tags cannot be carried over

There are two reasons only, and both show before anything is changed: the translation has no source,
or its alignment names a word that is not there. The pairs of an alignment are taken up in their
order, so it is the first of the pairs that go astray which is reported.

* `Reach.takeUp_eq`: taking pairs up one by one is taking them at once.
* `Alignment.find?_eq_some_iff`: which pair is reported.
* `Translation.run_projectInPlace`: carrying tags over in place does what `projectTags` does, and a
  failure leaves the translation as it was.
* `Translation.projectTags_failure`: when carrying tags over fails, and when it changes nothing.
-/

namespace MarkupTransfer

/-! ## Pairs one by one -/

theorem extremes?_concat (ns : List Nat) (n : Nat) :
    extremes? (ns ++ [n]) = some (Reach.widen n (extremes? ns)) := by
  refine extremes?_eq_some_iff.mpr ?_
  cases hrange : extremes? ns with
  | none =>
    obtain rfl := extremes?_eq_none_iff.mp hrange
    simp
  | some range =>
    obtain ⟨⟨hlow, hleast⟩, hhigh, hgreatest⟩ := extremes?_eq_some_iff.mp hrange
    simp only [List.mem_append, List.mem_singleton]
    refine ⟨⟨?_, fun m hm => ?_⟩, ?_, fun m hm => ?_⟩
    · rcases Nat.le_total range.1 n with hle | hle
      · rw [Nat.min_eq_left hle]
        exact .inl hlow
      · exact .inr (Nat.min_eq_right hle)
    · rcases hm with hm | rfl
      · exact Nat.le_trans (Nat.min_le_left _ _) (hleast m hm)
      · exact Nat.min_le_right _ _
    · rcases Nat.le_total n range.2 with hle | hle
      · rw [Nat.max_eq_left hle]
        exact .inl hhigh
      · exact .inr (Nat.max_eq_right hle)
    · rcases hm with hm | rfl
      · exact Nat.le_trans (hgreatest m hm) (Nat.le_max_left _ _)
      · exact Nat.le_max_right _ _

namespace Reach

/-- The reach of words that some pairs align. -/
def ofPairs (sourceCount targetCount : Nat) (pairs : List (Nat × Nat)) : Reach :=
  ⟨(List.range sourceCount).map fun s => extremes? ((pairs.filter fun p => p.1 == s).map Prod.snd),
    targetCount⟩

variable {sourceCount targetCount : Nat}

theorem sourceCount_ofPairs (pairs : List (Nat × Nat)) :
    (ofPairs sourceCount targetCount pairs).sourceCount = sourceCount := by
  simp [ofPairs, Reach.sourceCount]

theorem blank_eq : blank sourceCount targetCount = ofPairs sourceCount targetCount [] := by
  simp [blank, ofPairs, extremes?, List.map_const']

/-- **One more pair widens the range of its source word**, and of no other. -/
theorem extend_ofPairs (pairs : List (Nat × Nat)) (s t : Nat) :
    (ofPairs sourceCount targetCount pairs).extend s t =
      ofPairs sourceCount targetCount (pairs ++ [(s, t)]) := by
  refine congrArg (Reach.mk · _) (List.ext_getElem? fun i => ?_)
  simp only [List.getElem?_modify, ofPairs, List.getElem?_map, List.filter_append, List.map_append]
  by_cases hi : i < sourceCount
  · rw [List.getElem?_range hi]
    by_cases hs : s = i
    · simp [hs, extremes?_concat]
    · simp [hs]
  · rw [List.getElem?_eq_none (by simpa using hi)]
    rfl

/-- **Taking pairs up one by one is taking them at once**, up to the first that names a word which
is not there. -/
theorem takeUp_ofPairs (front back : List (Nat × Nat)) :
    (ofPairs sourceCount targetCount front).takeUp back =
      match back.find? fun p => sourceCount ≤ p.1 || targetCount ≤ p.2 with
      | some (s, t) => .error (.alignmentOutOfRange s t sourceCount targetCount)
      | none => .ok (ofPairs sourceCount targetCount (front ++ back)) := by
  induction back generalizing front with
  | nil => simp [takeUp]
  | cons p back ih =>
    obtain ⟨s, t⟩ := p
    have hcount : (ofPairs sourceCount targetCount front).targetCount = targetCount := rfl
    rw [takeUp, sourceCount_ofPairs, hcount, List.find?_cons]
    by_cases hstray : (sourceCount ≤ s || targetCount ≤ t) = true
    · simp only [hstray, if_true]
    · simp only [hstray]
      rw [extend_ofPairs, ih, List.append_assoc]
      rfl

theorem takeUp_eq (a : Alignment) :
    (blank sourceCount targetCount).takeUp a.toList = ofAlignment a sourceCount targetCount := by
  rw [blank_eq, takeUp_ofPairs, ofAlignment]
  rfl

end Reach

/-! ## The first pair that goes astray -/

/-- A pair of an alignment that names a word which is not there, and comes before all others that
do, by its source word and then by its target word. -/
structure Alignment.IsFirstStray (a : Alignment) (sourceCount targetCount : Nat) (p : Nat × Nat) :
    Prop where
  mem : p ∈ a.toList
  stray : sourceCount ≤ p.1 ∨ targetCount ≤ p.2
  first : ∀ q ∈ a.toList, sourceCount ≤ q.1 ∨ targetCount ≤ q.2 →
    p.1 < q.1 ∨ p.1 = q.1 ∧ p.2 ≤ q.2

namespace Alignment

variable {a : Alignment} {sourceCount targetCount : Nat} {p q : Nat × Nat}

/-- There is one first pair at most that goes astray. -/
theorem IsFirstStray.eq (hp : a.IsFirstStray sourceCount targetCount p)
    (hq : a.IsFirstStray sourceCount targetCount q) : p = q := by
  have hpq := hp.first q hq.mem hq.stray
  have hqp := hq.first p hp.mem hp.stray
  exact Prod.ext (by omega) (by omega)

theorem isFirstStray_of_find?
    (h : (a.toList.find? fun p => sourceCount ≤ p.1 || targetCount ≤ p.2) = some p) :
    a.IsFirstStray sourceCount targetCount p := by
  obtain ⟨hstray, front, back, hlist, hfront⟩ := List.find?_eq_some_iff_append.mp h
  have hascending := a.points.ascending
  simp only [Bool.or_eq_true, decide_eq_true_eq] at hstray
  refine ⟨List.mem_of_find?_eq_some h, hstray, fun q hq hqstray => ?_⟩
  rw [hlist] at hq
  rw [show a.points.toList = _ from hlist, List.pairwise_append, List.pairwise_cons] at hascending
  rcases List.mem_append.mp hq with hq | hq
  · have hnot := hfront q hq
    simp only [Bool.not_eq_true', Bool.or_eq_false_iff, decide_eq_false_iff_not] at hnot
    exact absurd hqstray (by omega)
  · rcases List.mem_cons.mp hq with rfl | hq
    · exact .inr ⟨rfl, Nat.le_refl _⟩
    · have := comparePairs_eq_lt_iff.mp (hascending.2.1.1 q hq)
      omega

/-- **The pair that is found is the first one that goes astray.** -/
theorem find?_eq_some_iff : (a.toList.find? fun p => sourceCount ≤ p.1 || targetCount ≤ p.2) =
    some p ↔ a.IsFirstStray sourceCount targetCount p := by
  refine ⟨isFirstStray_of_find?, fun hp => ?_⟩
  cases hfound : a.toList.find? fun p => sourceCount ≤ p.1 || targetCount ≤ p.2 with
  | some q => rw [(isFirstStray_of_find? hfound).eq hp]
  | none =>
    have hnot := List.find?_eq_none.mp hfound p hp.mem
    simp only [Bool.or_eq_true, decide_eq_true_eq] at hnot
    exact absurd hp.stray hnot

end Alignment

theorem Reach.ofAlignment_eq_error_iff {a : Alignment} {sourceCount targetCount : Nat}
    {e : ProjectionError} : ofAlignment a sourceCount targetCount = .error e ↔
      ∃ p, a.IsFirstStray sourceCount targetCount p ∧
        e = .alignmentOutOfRange p.1 p.2 sourceCount targetCount := by
  simp only [← Alignment.find?_eq_some_iff]
  rw [ofAlignment]
  cases a.toList.find? fun p => sourceCount ≤ p.1 || targetCount ≤ p.2 with
  | none => simp
  | some p => simp [eq_comm]

/-! ## Failures -/

namespace Translation

/-- Why tags cannot be carried over to a translation: it has no source, or its source has words and
tags and a pair of the alignment names a word that is not there. -/
inductive FailsWith (t : Translation) : ProjectionError → Prop
  | missingSource (hsource : t.source = none) : FailsWith t .missingSource
  | alignmentOutOfRange {source : Sentence} {p : Nat × Nat} (hsource : t.source = some source)
      (hwords : source.words ≠ []) (htags : source.tags ≠ [])
      (hstray : t.alignment.IsFirstStray source.words.length t.sentence.words.length p) :
      FailsWith t (.alignmentOutOfRange p.1 p.2 source.words.length t.sentence.words.length)

variable {t : Translation} {policy : UnalignedPolicy}

/-- **When carrying tags over fails.** -/
theorem projectTags_eq_error_iff {e : ProjectionError} :
    t.projectTags policy = .error e ↔ t.FailsWith e := by
  constructor
  · intro h
    unfold projectTags at h
    split at h
    · next hsource =>
      obtain rfl := Except.error.inj h
      exact .missingSource hsource
    · next source hsource =>
      split at h
      · cases h
      · next htags =>
        split at h
        · cases h
        · next hwords =>
          split at h
          · cases h
          · split at h
            · next hreach =>
              obtain rfl := Except.error.inj h
              obtain ⟨p, hstray, rfl⟩ := Reach.ofAlignment_eq_error_iff.mp hreach
              exact .alignmentOutOfRange hsource (by simpa using hwords) (by simpa using htags)
                hstray
            · cases h
  · rintro (hsource | @⟨source, p, hsource, hwords, htags, hstray⟩)
    · simp [projectTags, hsource]
    · have halign : t.alignment.isEmpty = false := by
        simpa [Alignment.isEmpty] using List.ne_nil_of_mem hstray.mem
      have hreach := Reach.ofAlignment_eq_error_iff.mpr ⟨p, hstray, rfl⟩
      simp [projectTags, hsource, hwords, htags, halign, hreach]

/-- **Carrying tags over in place does what `projectTags` does.** Where that fails the translation
is as it was. -/
theorem run_projectInPlace (policy : UnalignedPolicy) (t : Translation) :
    (projectInPlace policy).run t =
      match t.projectTags policy with
      | .ok t' => .ok () t'
      | .error e => .error e t := by
  simp only [projectInPlace, projectTags, EStateM.run_bind, EStateM.run_get]
  cases hsource : t.source with
  | none => rfl
  | some source =>
    by_cases htags : source.tags = []
    · simp [htags]
    by_cases hwords : source.words = []
    · simp [htags, hwords]
    cases halign : t.alignment.isEmpty with
    | true => simp [htags, hwords, halign]
    | false =>
      cases hreach : Reach.ofAlignment t.alignment source.words.length t.sentence.words.length with
      | error e => simp [htags, hwords, halign, Reach.takeUp_eq, hreach]
      | ok reach => simp [htags, hwords, halign, Reach.takeUp_eq, hreach, withTags, hsource]

/-- **Carrying tags over fails if there is no source, or if the source has words and tags and the
alignment names a word that is not there.** The error says which pair is the first that does, and
how many words there are. Done in place it then leaves the translation as it was, and a source
without tags, or an alignment without pairs where the source has words, leaves it so too. -/
theorem projectTags_failure (policy : UnalignedPolicy) (t : Translation) :
    (∀ e, t.projectTags policy = .error e ↔ t.FailsWith e) ∧
      (∀ t', t.projectTags policy = .ok t' ↔ (projectInPlace policy).run t = .ok () t') ∧
      (∀ e t', (projectInPlace policy).run t = .error e t' ↔ t.FailsWith e ∧ t' = t) ∧
      ∀ source, t.source = some source →
        source.tags = [] ∨ source.words ≠ [] ∧ t.alignment.toList = [] →
          (projectInPlace policy).run t = .ok () t := by
  refine ⟨fun e => projectTags_eq_error_iff, fun t' => ?_, fun e t' => ?_,
    fun source hsource h => ?_⟩
  · rw [run_projectInPlace]
    cases t.projectTags policy <;> simp
  · rw [run_projectInPlace, ← @projectTags_eq_error_iff t policy]
    cases t.projectTags policy <;> simp [eq_comm]
  · have hkept : t.projectTags policy = .ok t := by
      rcases h with htags | ⟨hwords, hnone⟩
      · simp [projectTags, hsource, htags]
      · simp [projectTags, hsource, hwords, Alignment.isEmpty, hnone]
    rw [run_projectInPlace, hkept]

/-- Two words with a tag between them. -/
def partedSource : Sentence :=
  .ofTokens [.ofText none ['a'] none none, .ofText none ['b'] none none]
    [⟨.xml, ['b', 'r'], "<br/>".toList, none, none, 1, .empty, false⟩]

/-- Three words for two, with two pairs that go astray. The first of them names a word that is not
in the translation. -/
def misalignedTranslation : Translation :=
  .ofWords
    [.ofText none ['x'] none none, .ofText none ['y'] none none, .ofText none ['z'] none none]
    partedSource (.ofPairs [(2, 0), (0, 7), (0, 0)])

theorem projectTags_failure_misalignedTranslation :
    misalignedTranslation.FailsWith (.alignmentOutOfRange 0 7 2 3) ∧
      (projectInPlace .nearest).run misalignedTranslation =
        .error (.alignmentOutOfRange 0 7 2 3) misalignedTranslation := by
  have htags : partedSource.tags ≠ [] := by
    simp [partedSource, Sentence.ofTokens, Sentence.sortTags]
  have hstray : misalignedTranslation.alignment.IsFirstStray 2 3 (0, 7) :=
    ⟨by decide, by decide, by decide⟩
  have hfails : misalignedTranslation.FailsWith (.alignmentOutOfRange 0 7 2 3) :=
    @FailsWith.alignmentOutOfRange misalignedTranslation partedSource _ rfl (by decide) htags hstray
  exact ⟨hfails, ((projectTags_failure .nearest misalignedTranslation).2.2.1 _ _).mpr ⟨hfails, rfl⟩⟩

end Translation

end MarkupTransfer
