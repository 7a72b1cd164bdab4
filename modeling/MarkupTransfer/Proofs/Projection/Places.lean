import MarkupTransfer.Projection.Reach
/-!
# Where an alignment leads

A source word reaches the target words from the least to the greatest one aligned to it. The words
of a span reach from the least to the greatest target word of any of them, and a place between words
lands next to the aligned word with the least distance from it.

* `exists_word?_of_mem`, `mem_of_word?`: what a word reaches.
* `coverage?_eq_some`: what the words of a span reach.
* `span_cases`: where a span lands.
* `nearest?_eq_some`: the place next to the closest aligned word, one on the right before one on the
  left.
-/

namespace MarkupTransfer

theorem extremes?_eq_some_iff {ns : List Nat} {low high : Nat} :
    extremes? ns = some (low, high) ↔
      (low ∈ ns ∧ ∀ n ∈ ns, low ≤ n) ∧ high ∈ ns ∧ ∀ n ∈ ns, n ≤ high := by
  rw [← List.min?_eq_some_iff, ← List.max?_eq_some_iff, extremes?]
  simp [Option.bind_eq_some_iff]

theorem extremes?_eq_none_iff {ns : List Nat} : extremes? ns = none ↔ ns = [] := by
  cases ns <;> simp [extremes?]

theorem Alignment.mem_targetsOf {a : Alignment} {s t : Nat} :
    t ∈ a.targetsOf s ↔ (s, t) ∈ a.toList := by
  simp [targetsOf]

namespace Reach

variable {r : Reach} {a : Alignment} {sourceCount targetCount : Nat}

/-! ## Words -/

theorem ofAlignment_eq_ok_iff : ofAlignment a sourceCount targetCount = .ok r ↔
    (∀ p ∈ a.toList, p.1 < sourceCount ∧ p.2 < targetCount) ∧
      r = ⟨(List.range sourceCount).map fun s => extremes? (a.targetsOf s), targetCount⟩ := by
  have hrange : (a.toList.find? fun p => sourceCount ≤ p.1 || targetCount ≤ p.2) = none ↔
      ∀ p ∈ a.toList, p.1 < sourceCount ∧ p.2 < targetCount := by
    simp [List.find?_eq_none]
  rw [ofAlignment, ← hrange]
  cases a.toList.find? fun p => sourceCount ≤ p.1 || targetCount ≤ p.2 with
  | some p => simp
  | none => simp [eq_comm]

theorem sourceCount_eq (h : ofAlignment a sourceCount targetCount = .ok r) :
    r.sourceCount = sourceCount := by
  simp [(ofAlignment_eq_ok_iff.mp h).2, Reach.sourceCount]

theorem word?_eq_extremes? (h : ofAlignment a sourceCount targetCount = .ok r) (s : Nat) :
    r.word? s = extremes? (a.targetsOf s) := by
  obtain ⟨hrange, rfl⟩ := ofAlignment_eq_ok_iff.mp h
  by_cases hs : s < sourceCount
  · simp [word?, hs]
  · have hnone : a.targetsOf s = [] :=
      List.eq_nil_iff_forall_not_mem.mpr fun t ht => hs (hrange _ (Alignment.mem_targetsOf.mp ht)).1
    simp [word?, hs, extremes?_eq_none_iff.mpr hnone]

/-- An aligned word reaches what is aligned to it. -/
theorem exists_word?_of_mem (h : ofAlignment a sourceCount targetCount = .ok r) {s t : Nat}
    (hp : (s, t) ∈ a.toList) : ∃ w, r.word? s = some w ∧ w.1 ≤ t ∧ t ≤ w.2 := by
  have ht := Alignment.mem_targetsOf.mpr hp
  rw [word?_eq_extremes? h]
  cases hw : extremes? (a.targetsOf s) with
  | none => simp [extremes?_eq_none_iff.mp hw] at ht
  | some w =>
    obtain ⟨⟨-, hlow⟩, -, hhigh⟩ := extremes?_eq_some_iff.mp hw
    exact ⟨w, rfl, hlow t ht, hhigh t ht⟩

/-- What a word reaches first and last is aligned to it. -/
theorem mem_of_word? (h : ofAlignment a sourceCount targetCount = .ok r) {s : Nat} {w : Nat × Nat}
    (hw : r.word? s = some w) : (s, w.1) ∈ a.toList ∧ (s, w.2) ∈ a.toList ∧ w.1 ≤ w.2 := by
  rw [word?_eq_extremes? h] at hw
  obtain ⟨⟨hmem, hlow⟩, hmem', -⟩ := extremes?_eq_some_iff.mp hw
  exact ⟨Alignment.mem_targetsOf.mp hmem, Alignment.mem_targetsOf.mp hmem', hlow _ hmem'⟩

/-- Nothing is reached by a word that is not there. -/
theorem lt_sourceCount_of_word? {s : Nat} {w : Nat × Nat} (hw : r.word? s = some w) :
    s < r.sourceCount := by
  rw [word?, Option.join_eq_some_iff] at hw
  exact (List.getElem?_eq_some_iff.mp hw).1

/-! ## Spans -/

theorem mem_reached {start stop : Nat} {w : Nat × Nat} :
    w ∈ ((r.words.take stop).drop start).filterMap id ↔
      ∃ s, start ≤ s ∧ s < stop ∧ r.word? s = some w := by
  rw [List.mem_filterMap]
  simp only [id, exists_eq_right, List.mem_iff_getElem?, List.getElem?_drop, List.getElem?_take,
    word?, Option.join_eq_some_iff]
  constructor
  · rintro ⟨n, hn⟩
    split at hn
    · next hlt => exact ⟨start + n, Nat.le_add_right _ _, hlt, hn⟩
    · cases hn
  · rintro ⟨s, hstart, hstop, hs⟩
    obtain ⟨n, rfl⟩ := Nat.exists_eq_add_of_le hstart
    exact ⟨n, by rw [if_pos hstop, hs]⟩

/-- **What the words of a span reach.** -/
theorem coverage?_eq_some {start stop low high : Nat}
    (h : r.coverage? start stop = some (low, high)) :
    (∃ s w, start ≤ s ∧ s < stop ∧ r.word? s = some w ∧ w.1 = low) ∧
      (∃ s w, start ≤ s ∧ s < stop ∧ r.word? s = some w ∧ w.2 = high) ∧
      ∀ s w, start ≤ s → s < stop → r.word? s = some w → low ≤ w.1 ∧ w.2 ≤ high := by
  simp only [coverage?, Option.bind_eq_some_iff, Option.map_eq_some_iff, Prod.mk.injEq,
    List.min?_eq_some_iff, List.max?_eq_some_iff] at h
  obtain ⟨_, ⟨hlow, hleast⟩, _, ⟨hhigh, hgreatest⟩, rfl, rfl⟩ := h
  refine ⟨?_, ?_, fun s w hstart hstop hw => ?_⟩
  · obtain ⟨w, hw, heq⟩ := List.mem_map.mp hlow
    obtain ⟨s, hs⟩ := mem_reached.mp hw
    exact ⟨s, w, hs.1, hs.2.1, hs.2.2, heq⟩
  · obtain ⟨w, hw, heq⟩ := List.mem_map.mp hhigh
    obtain ⟨s, hs⟩ := mem_reached.mp hw
    exact ⟨s, w, hs.1, hs.2.1, hs.2.2, heq⟩
  · have hmem := mem_reached.mpr ⟨s, hstart, hstop, hw⟩
    exact ⟨hleast _ (List.mem_map_of_mem hmem), hgreatest _ (List.mem_map_of_mem hmem)⟩

theorem coverage?_eq_none {start stop : Nat} (h : r.coverage? start stop = none) {s : Nat}
    (hstart : start ≤ s) (hstop : s < stop) : r.word? s = none := by
  rw [Option.eq_none_iff_forall_ne_some]
  intro w hw
  have hmem := mem_reached.mpr ⟨s, hstart, hstop, hw⟩
  rw [coverage?] at h
  cases hreached : ((r.words.take stop).drop start).filterMap id with
  | nil =>
    rw [hreached] at hmem
    cases hmem
  | cons w' rest =>
    rw [hreached] at h
    simp at h

/-- A pair with aligned words lands on what they reach, any other span where its ends land. -/
theorem span_cases (r : Reach) (policy : UnalignedPolicy) (u : Span) :
    (∃ low high, u.isPair = true ∧ r.coverage? u.start u.stop = some (low, high) ∧
      r.span policy u = (low, high + 1)) ∨
    (u.isPair = true → ∀ s, u.start ≤ s → s < u.stop → r.word? s = none) ∧
      r.span policy u = r.ends policy u := by
  rw [span]
  cases hpair : u.isPair with
  | false => exact .inr ⟨nofun, rfl⟩
  | true =>
    cases hempty : u.isEmpty with
    | true =>
      have heq : u.start = u.stop := beq_iff_eq.mp hempty
      exact .inr ⟨fun _ s hstart hstop => by omega, rfl⟩
    | false =>
      cases hcoverage : r.coverage? u.start u.stop with
      | none => exact .inr ⟨fun _ _ => coverage?_eq_none hcoverage, rfl⟩
      | some reached => exact .inl ⟨reached.1, reached.2, rfl, rfl, rfl⟩

section

variable {u : Span} {k n : Nat}

/-- A pair that covers an aligned word is sent to an interval with what is aligned to the word. -/
theorem span_of_mem (h : ofAlignment a sourceCount targetCount = .ok r) (policy : UnalignedPolicy)
    (hpair : u.isPair = true) (hstart : u.start ≤ k) (hstop : k < u.stop)
    (hp : (k, n) ∈ a.toList) : (r.span policy u).1 ≤ n ∧ n < (r.span policy u).2 := by
  obtain ⟨w, hw, hlow, hhigh⟩ := exists_word?_of_mem h hp
  rcases r.span_cases policy u with ⟨low, high, -, hcoverage, hspan⟩ | ⟨hnone, -⟩
  · have hbounds := (coverage?_eq_some hcoverage).2.2 k w hstart hstop hw
    rw [hspan]
    exact ⟨Nat.le_trans hbounds.1 hlow, Nat.lt_succ_of_le (Nat.le_trans hhigh hbounds.2)⟩
  · simp [hnone hpair k hstart hstop] at hw

/-- The interval of a pair that covers an aligned word begins with a word that is aligned to what
the pair covers, and ends behind such a word. -/
theorem span_ends_of_mem (h : ofAlignment a sourceCount targetCount = .ok r)
    (policy : UnalignedPolicy) (hpair : u.isPair = true) (hstart : u.start ≤ k) (hstop : k < u.stop)
    (hp : (k, n) ∈ a.toList) :
    (∃ s, u.start ≤ s ∧ s < u.stop ∧ (s, (r.span policy u).1) ∈ a.toList) ∧
      ∃ s last, u.start ≤ s ∧ s < u.stop ∧ (s, last) ∈ a.toList ∧
        (r.span policy u).2 = last + 1 := by
  rcases r.span_cases policy u with ⟨low, high, -, hcoverage, hspan⟩ | ⟨hnone, -⟩
  · obtain ⟨⟨s, w, hs, hlt, hw, rfl⟩, ⟨s', w', hs', hlt', hw', rfl⟩, -⟩ :=
      coverage?_eq_some hcoverage
    rw [hspan]
    exact ⟨⟨s, hs, hlt, (mem_of_word? h hw).1⟩, s', w'.2, hs', hlt', (mem_of_word? h hw').2.1, rfl⟩
  · obtain ⟨w, hw, -⟩ := exists_word?_of_mem h hp
    simp [hnone hpair k hstart hstop] at hw

/-- The interval of a pair ends behind the last target word aligned to what it covers. -/
theorem span_snd_of_mem (h : ofAlignment a sourceCount targetCount = .ok r)
    (policy : UnalignedPolicy) (hpair : u.isPair = true) (hstart : u.start ≤ k) (hstop : k < u.stop)
    (hp : (k, n) ∈ a.toList)
    (hlast : ∀ p ∈ a.toList, u.start ≤ p.1 → p.1 < u.stop → p.2 ≤ n) :
    (r.span policy u).2 = n + 1 := by
  have hmem := (span_of_mem h policy hpair hstart hstop hp).2
  obtain ⟨-, s, last, hs, hlt, hpoint, hend⟩ := span_ends_of_mem h policy hpair hstart hstop hp
  have hle : last ≤ n := hlast _ hpoint hs hlt
  omega

/-- A tag that stands alone is sent to a place. -/
theorem span_of_closing_eq_none (hclosing : u.closing = none) (hempty : u.start = u.stop)
    (policy : UnalignedPolicy) : (r.span policy u).2 = (r.span policy u).1 := by
  simp [span, ends, Span.isPair, Span.isEmpty, hclosing, hempty]

end

/-! ## Places -/

/-- How many words lie between a place and a word. -/
def distance (place word : Nat) : Nat := if place ≤ word then word - place else place - 1 - word

theorem atDistance?_eq_some {place d x : Nat} (h : r.atDistance? place d = some x) :
    (∃ w, r.word? (place + d) = some w ∧ x = w.1) ∨
      r.word? (place + d) = none ∧ d < place ∧ ∃ w, r.word? (place - 1 - d) = some w ∧
        x = w.2 + 1 := by
  rw [atDistance?, before?, behind?] at h
  cases hright : r.word? (place + d) with
  | some w =>
    rw [hright] at h
    exact .inl ⟨w, rfl, (Option.some.inj h).symm⟩
  | none =>
    rw [hright] at h
    split at h
    · next hlt =>
      obtain ⟨w, hw, rfl⟩ := Option.map_eq_some_iff.mp h
      exact .inr ⟨rfl, hlt, w, hw, rfl⟩
    · cases h

/-- A word is seen from a place at its distance. -/
theorem word?_eq_none_of_atDistance? {place s : Nat}
    (h : r.atDistance? place (distance place s) = none) : r.word? s = none := by
  have hright : r.word? (place + distance place s) = none := by
    cases hw : r.word? (place + distance place s) with
    | none => rfl
    | some w => simp [atDistance?, before?, hw] at h
  have hleft : distance place s < place → r.word? (place - 1 - distance place s) = none := by
    intro hlt
    simpa [atDistance?, before?, behind?, hright, hlt] using h
  unfold distance at hright hleft
  split at hright
  · next hle => rwa [Nat.add_sub_of_le hle] at hright
  · next hgt =>
    rw [if_neg hgt] at hleft
    have hback := hleft (by omega)
    rwa [show place - 1 - (place - 1 - s) = s by omega] at hback

theorem findSome?_range_eq_some {α : Type} {f : Nat → Option α} {n : Nat} {x : α}
    (h : (List.range n).findSome? f = some x) : ∃ d, f d = some x ∧ ∀ e < d, f e = none := by
  obtain ⟨front, d, back, heq, hd, hfront⟩ := List.findSome?_eq_some_iff.mp h
  have hlt : d < n := by
    rw [← List.mem_range, heq]
    simp
  have hascending : (front ++ d :: back).Pairwise (· < ·) := heq ▸ List.pairwise_lt_range
  have hback := (List.pairwise_cons.mp (List.pairwise_append.mp hascending).2.1).1
  refine ⟨d, hd, fun e he => hfront e ?_⟩
  have hmem : e ∈ front ++ d :: back := by
    rw [← heq, List.mem_range]
    exact Nat.lt_trans he hlt
  rcases List.mem_append.mp hmem with hmem | hmem
  · exact hmem
  · rcases List.mem_cons.mp hmem with rfl | hmem
    · exact absurd he (Nat.lt_irrefl e)
    · exact absurd (hback e hmem) (Nat.lt_asymm he)

/-- **A place lands next to the closest aligned word**, before what it reaches if it is on the right
and behind it if it is on the left. A word on the right is preferred to one as far on the left. -/
theorem nearest?_eq_some {place x : Nat} (h : r.nearest? place = some x) :
    ∃ s w, r.word? s = some w ∧
      (place ≤ s ∧ x = w.1 ∨ s < place ∧ x = w.2 + 1) ∧
      ∀ s' w', r.word? s' = some w' → distance place s ≤ distance place s' ∧
        (s < place → place ≤ s' → distance place s < distance place s') := by
  obtain ⟨d, hd, hcloser⟩ := findSome?_range_eq_some h
  have hfar : ∀ s' w', r.word? s' = some w' → d ≤ distance place s' := by
    intro s' w' hw'
    refine Nat.le_of_not_lt fun hlt => ?_
    simp [word?_eq_none_of_atDistance? (hcloser _ hlt)] at hw'
  rcases atDistance?_eq_some hd with ⟨w, hw, hx⟩ | ⟨hright, hlt, w, hw, hx⟩
  · have hle : place ≤ place + d := Nat.le_add_right place d
    have hdistance : distance place (place + d) = d := by
      rw [distance, if_pos hle]
      omega
    refine ⟨place + d, w, hw, .inl ⟨hle, hx⟩, fun s' w' hw' => ?_⟩
    rw [hdistance]
    exact ⟨hfar s' w' hw', fun hback => absurd hback (Nat.not_lt.mpr hle)⟩
  · have hback : place - 1 - d < place := by omega
    have hdistance : distance place (place - 1 - d) = d := by
      rw [distance, if_neg (Nat.not_le.mpr hback)]
      omega
    refine ⟨place - 1 - d, w, hw, .inr ⟨hback, hx⟩, fun s' w' hw' => ?_⟩
    rw [hdistance]
    refine ⟨hfar s' w' hw', fun _ hle => Nat.lt_of_le_of_ne (hfar s' w' hw') fun heq => ?_⟩
    have hs' : place + d = s' := by
      rw [heq, distance, if_pos hle]
      omega
    simp [← hs', hright] at hw'

/-- A place of a sentence with an aligned word lands next to one. -/
theorem nearest?_eq_place {place s : Nat} {w : Nat × Nat} (hw : r.word? s = some w)
    (hplace : place ≤ r.sourceCount) : r.nearest? place = some (r.place .nearest place) := by
  have hs := lt_sourceCount_of_word? hw
  have hsome : (r.nearest? place).isSome = true := by
    refine List.findSome?_isSome_iff.mpr ⟨distance place s, List.mem_range.mpr ?_, ?_⟩
    · unfold distance
      split <;> omega
    · cases h : r.atDistance? place (distance place s) with
      | some x => rfl
      | none => simp [word?_eq_none_of_atDistance? h] at hw
  obtain ⟨x, hx⟩ := Option.isSome_iff_exists.mp hsome
  rw [Reach.place, hx, Option.getD_some]

end Reach

end MarkupTransfer
