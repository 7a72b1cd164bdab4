import MarkupTransfer.Proofs.Projection.Nesting
/-!
# What spans cover

The tags of a sentence stand in ascending order, so a span covers the words between the positions of
its two tags, and of two spans that do not nest the earlier one ends where the later one begins or
before.

* `mem_spans_iff`: the spans of a sentence.
* `last_lt_opening`: spans that have one of two tags each do not overlap.
* `covers_of_holds`: spans around a pair cover the words of the pair.
-/

namespace MarkupTransfer

namespace Span

/-- The last tag of a span. -/
def last (s : Span) : Nat := s.closing.getD s.opening

/-- Whether a tag is one of a span or lies between its two tags. -/
def Holds (s : Span) (index : Nat) : Prop := s.opening ≤ index ∧ index ≤ s.last

instance (s : Span) (index : Nat) : Decidable (s.Holds index) :=
  inferInstanceAs (Decidable (_ ∧ _))

end Span

namespace Pairing

variable {tags : List Tag} {width i j : Nat} {u v : Span}

/-- Later tags stand further on. -/
theorem position_mono (hle : i ≤ j) (hj : j < (ofTags tags).tags.length) :
    (ofTags tags).position i ≤ (ofTags tags).position j := by
  have hascending : (ofTags tags).tags.Pairwise fun a b => a.position ≤ b.position :=
    Sentence.sortTags_ascending tags
  have hi : i < (ofTags tags).tags.length := Nat.lt_of_le_of_lt hle hj
  simp only [position, List.getElem?_eq_getElem hi, List.getElem?_eq_getElem hj, Option.map_some,
    Option.getD_some]
  rcases Nat.lt_or_eq_of_le hle with hlt | rfl
  · exact List.pairwise_iff_getElem.mp hascending i j hi hj hlt
  · exact Nat.le_refl _

/-- The words of a pair end at the position of its closing tag. -/
theorem clamp_position {o c : Nat} (h : (o, c) ∈ (ofTags tags).pairs) :
    clamp (min ((ofTags tags).position o) width) width ((ofTags tags).position c) =
      min ((ofTags tags).position c) width := by
  obtain ⟨hlt, hcount⟩ := (ofTags_areNested tags).bounds _ h
  have hle : (ofTags tags).position o ≤ (ofTags tags).position c :=
    position_mono (Nat.le_of_lt hlt) hcount
  unfold clamp
  omega

/-- **The spans of a sentence**: its pairs, and its tags without a partner. -/
theorem mem_spans_iff : u ∈ (ofTags tags).spans width ↔ u.opening < (ofTags tags).tags.length ∧
    u.start = min ((ofTags tags).position u.opening) width ∧
    u.stop = min ((ofTags tags).position u.last) width ∧
    match u.closing with
    | some c => (u.opening, c) ∈ (ofTags tags).pairs
    | none => (∀ c, (u.opening, c) ∉ (ofTags tags).pairs) ∧
        ∀ o, (o, u.opening) ∉ (ofTags tags).pairs := by
  have hn := ofTags_areNested tags
  rw [spans, List.mem_filterMap]
  constructor
  · rintro ⟨i, hi, hspan⟩
    rw [List.mem_range] at hi
    rw [span?] at hspan
    cases hc : (ofTags tags).closing? i with
    | some c =>
      have hpair := (closing?_eq_some_iff hn).mp hc
      simp only [hc, Option.some.injEq] at hspan
      subst hspan
      exact ⟨hi, rfl, clamp_position hpair, hpair⟩
    | none =>
      simp only [hc] at hspan
      split at hspan
      · cases hspan
      · next hopening =>
        simp only [Option.some.injEq] at hspan
        subst hspan
        refine ⟨hi, rfl, rfl, fun c hpair => ?_, fun o hpair => ?_⟩
        · simp [(closing?_eq_some_iff hn).mpr hpair] at hc
        · exact hopening (isSome_opening?_iff.mpr ⟨o, hpair⟩)
  · obtain ⟨o, closing, start, stop⟩ := u
    simp only [Span.last]
    rintro ⟨hi, rfl, rfl, hpair⟩
    refine ⟨o, List.mem_range.mpr hi, ?_⟩
    cases closing with
    | some c =>
      have hclosing := (closing?_eq_some_iff hn).mpr hpair
      simp [span?, hclosing, clamp_position hpair]
    | none =>
      have hclosing : (ofTags tags).closing? o = none := by
        rw [Option.eq_none_iff_forall_ne_some]
        exact fun c hc => hpair.1 c ((closing?_eq_some_iff hn).mp hc)
      have hopening : ¬ ((ofTags tags).opening? o).isSome = true := fun h =>
        (isSome_opening?_iff.mp h).elim hpair.2
      simp [span?, hclosing, hopening]

theorem opening_le_last (hu : u ∈ (ofTags tags).spans width) : u.opening ≤ u.last := by
  obtain ⟨-, -, -, hpair⟩ := mem_spans_iff.mp hu
  unfold Span.last
  cases hclosing : u.closing with
  | none => exact Nat.le_refl _
  | some c =>
    rw [hclosing] at hpair
    exact Nat.le_of_lt ((ofTags_areNested tags).bounds _ hpair).1

theorem last_lt_length (hu : u ∈ (ofTags tags).spans width) :
    u.last < (ofTags tags).tags.length := by
  obtain ⟨hlt, -, -, hpair⟩ := mem_spans_iff.mp hu
  unfold Span.last
  cases hclosing : u.closing with
  | none => exact hlt
  | some c =>
    rw [hclosing] at hpair
    exact ((ofTags_areNested tags).bounds _ hpair).2

/-- A span that begins inside another one ends inside it. -/
theorem last_lt_last (hu : u ∈ (ofTags tags).spans width) (hv : v ∈ (ofTags tags).spans width)
    (hopen : u.opening < v.opening) (hclose : v.opening ≤ u.last) : v.last < u.last := by
  have hn := ofTags_areNested tags
  obtain ⟨-, -, -, hu⟩ := mem_spans_iff.mp hu
  obtain ⟨-, -, -, hv⟩ := mem_spans_iff.mp hv
  cases hclosing : u.closing with
  | none =>
    simp only [Span.last, hclosing, Option.getD_none] at hclose
    omega
  | some c =>
    rw [hclosing] at hu
    simp only [Span.last, hclosing, Option.getD_some] at hclose ⊢
    cases hclosing' : v.closing with
    | none =>
      rw [hclosing'] at hv
      refine Nat.lt_of_le_of_ne hclose fun heq => hv.2 u.opening ?_
      obtain rfl : v.opening = c := heq
      exact hu
    | some d =>
      rw [hclosing'] at hv
      refine hn.closing_lt hu hv hopen (Nat.lt_of_le_of_ne hclose ?_)
      exact hn.opening_ne_closing hv hu

/-- **Spans that have one of two tags each do not overlap.** -/
theorem last_lt_opening (hu : u ∈ (ofTags tags).spans width) (hv : v ∈ (ofTags tags).spans width)
    (hlt : i < j) (hui : u.Holds i) (huj : ¬ u.Holds j) (hvj : v.Holds j) (hvi : ¬ v.Holds i) :
    u.last < v.opening := by
  have hnested := last_lt_last hu hv
  unfold Span.Holds at hui huj hvj hvi
  omega

theorem start_le_stop (hu : u ∈ (ofTags tags).spans width) : u.start ≤ u.stop := by
  have hle := position_mono (opening_le_last hu) (last_lt_length hu)
  obtain ⟨-, hstart, hstop, -⟩ := mem_spans_iff.mp hu
  omega

/-- A span that ends in front of another one covers words in front of it. -/
theorem stop_le_start (hu : u ∈ (ofTags tags).spans width) (hv : v ∈ (ofTags tags).spans width)
    (hlt : u.last < v.opening) : u.stop ≤ v.start := by
  obtain ⟨hcount, hstart, -, -⟩ := mem_spans_iff.mp hv
  obtain ⟨-, -, hstop, -⟩ := mem_spans_iff.mp hu
  have hle := position_mono (Nat.le_of_lt hlt) hcount
  omega

/-- Whether a word stands between the two tags of a pair. -/
def Covers (p : Pairing) (o c word : Nat) : Prop := p.position o ≤ word ∧ word < p.position c

instance (p : Pairing) (o c word : Nat) : Decidable (p.Covers o c word) :=
  inferInstanceAs (Decidable (_ ∧ _))

/-- The span of a pair. -/
theorem exists_span_of_pair {o c : Nat} (hpair : (o, c) ∈ (ofTags tags).pairs) (width : Nat) :
    ∃ s ∈ (ofTags tags).spans width, s.opening = o ∧ s.closing = some c := by
  obtain ⟨hlt, hcount⟩ := (ofTags_areNested tags).bounds _ hpair
  exact ⟨⟨o, some c, min ((ofTags tags).position o) width, min ((ofTags tags).position c) width⟩,
    mem_spans_iff.mpr ⟨Nat.lt_trans hlt hcount, rfl, rfl, hpair⟩, rfl, rfl⟩

/-- A span that has the opening tag of a pair has the closing tag, too. -/
theorem closing_le_last {o c : Nat} (hpair : (o, c) ∈ (ofTags tags).pairs)
    (hu : u ∈ (ofTags tags).spans width) (huo : u.Holds o) : c ≤ u.last := by
  obtain ⟨s, hs, rfl, hclosing⟩ := exists_span_of_pair hpair width
  have hlast : s.last = c := by rw [Span.last, hclosing, Option.getD_some]
  rcases Nat.lt_or_eq_of_le huo.1 with hlt | heq
  · rw [← hlast]
    exact Nat.le_of_lt (last_lt_last hu hs hlt huo.2)
  · obtain ⟨-, -, -, hpair'⟩ := mem_spans_iff.mp hu
    cases hclosing' : u.closing with
    | none =>
      rw [hclosing', heq] at hpair'
      exact absurd hpair (hpair'.1 c)
    | some d =>
      rw [hclosing'] at hpair'
      have hsame := (ofTags_areNested tags).eq_of_opening hpair hpair' heq.symm
      rw [Span.last, hclosing', Option.getD_some]
      exact Nat.le_of_eq (congrArg Prod.snd hsame)

/-- **A span that has the tags of a pair covers the words of the pair.** -/
theorem covers_of_holds {o c k : Nat} (hpair : (o, c) ∈ (ofTags tags).pairs)
    (hcovers : (ofTags tags).Covers o c k) (hk : k < width)
    (hu : u ∈ (ofTags tags).spans width) (huo : u.Holds o) :
    u.isPair = true ∧ u.start ≤ k ∧ k < u.stop := by
  obtain ⟨hlt, hcount⟩ := (ofTags_areNested tags).bounds _ hpair
  have hend := closing_le_last hpair hu huo
  have hfront : (ofTags tags).position u.opening ≤ (ofTags tags).position o :=
    position_mono huo.1 (Nat.lt_trans hlt hcount)
  have hback : (ofTags tags).position c ≤ (ofTags tags).position u.last :=
    position_mono hend (last_lt_length hu)
  obtain ⟨-, hstart, hstop, -⟩ := mem_spans_iff.mp hu
  obtain ⟨hbegin, hbehind⟩ := hcovers
  refine ⟨?_, by omega, by omega⟩
  cases hclosing : u.closing with
  | some d => rw [Span.isPair, hclosing, Option.isSome_some]
  | none =>
    -- A tag that stands alone covers nothing.
    have hsingle : u.last = u.opening := by rw [Span.last, hclosing, Option.getD_none]
    rw [hsingle] at hback
    omega

end Pairing

end MarkupTransfer
