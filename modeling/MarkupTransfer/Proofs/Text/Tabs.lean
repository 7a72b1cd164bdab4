import Mathlib.Data.List.Basic
import MarkupTransfer.Proofs.Text.Segment
/-!
# Segments with a tab or a line feed in them

The two sides of a place are kept together just if the place lies inside a segment. On the left of a
tab nothing is kept with it, and on the right of it nothing but what attaches itself to anything; a
line feed stands alone, but for a carriage return in front. So a segment with one of them in it is
blank, unless it is a tab with an attached character behind.

* `joins_of_segmentsFrom_eq`, `exists_segment_of_joins`: what is kept together is a segment.
* `isBlank_or_eq_of_mem_segments`: a segment with a tab or a line feed in it.
* `exists_segment_of_tab`: a tab and what is attached to it.
-/

namespace MarkupTransfer.Text

open WordClass

variable {a b c : Char} {left t : Text}

/-! ## Places inside of segments -/

/-- How the first character of a text goes with the segments of the rest. -/
theorem exists_segmentsFrom_cons (left : Text) (c : Char) (ht : t ≠ []) :
    ∃ s rest, segmentsFrom (c :: left) t = s :: rest ∧ s ≠ [] ∧ s ++ rest.flatten = t ∧
      segmentsFrom left (c :: t) =
        if joins (c :: left) t then (c :: s) :: rest else [c] :: s :: rest := by
  have hflatten := flatten_segmentsFrom (c :: left) t
  cases hs : segmentsFrom (c :: left) t with
  | nil =>
    rw [hs] at hflatten
    exact absurd hflatten.symm ht
  | cons s rest =>
    rw [hs] at hflatten
    refine ⟨s, rest, rfl, segmentsFrom_ne_nil (c :: left) t s (by simp [hs]), hflatten, ?_⟩
    rw [segmentsFrom, hs]

theorem append_ne_singleton {u v : Text} (hu : u ≠ []) (hv : v ≠ []) (c : Char) : u ++ v ≠ [c] := by
  intro huv
  have hlength := congrArg List.length huv
  have := List.length_pos_iff.mpr hu
  have := List.length_pos_iff.mpr hv
  rw [List.length_append, List.length_singleton] at hlength
  omega

/-- **The two sides of a place inside a segment are kept together.** -/
theorem joins_of_segmentsFrom_eq {front back : List Text} {u v : Text}
    (h : segmentsFrom left t = front ++ (u ++ v) :: back) (hu : u ≠ []) (hv : v ≠ []) :
    joins (u.reverse ++ front.flatten.reverse ++ left) (v ++ back.flatten) = true := by
  induction t generalizing left front u with
  | nil => simp [segmentsFrom] at h
  | cons c t ih =>
    by_cases ht : t = []
    · subst ht
      obtain _ | ⟨f, front⟩ := front
      · exact absurd (List.head_eq_of_cons_eq h).symm (append_ne_singleton hu hv c)
      · simp [segmentsFrom] at h
    obtain ⟨s, rest, hs, -, rfl, hcons⟩ := exists_segmentsFrom_cons left c ht
    rw [hcons] at h
    split at h
    · next hjoins =>
      obtain _ | ⟨f, front⟩ := front
      · obtain ⟨huv, rfl⟩ := List.cons.inj h
        obtain _ | ⟨x, u⟩ := u
        · exact absurd rfl hu
        obtain ⟨rfl, rfl⟩ := List.cons.inj huv
        by_cases hu' : u = []
        · subst hu'
          exact hjoins
        · have hinside : segmentsFrom (c :: left) (u ++ v ++ rest.flatten) =
              [] ++ (u ++ v) :: rest := hs
          simpa using ih hinside hu'
      · obtain ⟨rfl, hrest⟩ := List.cons.inj h
        have hinside : segmentsFrom (c :: left) (s ++ rest.flatten) =
            (s :: front) ++ (u ++ v) :: back := by
          rw [hs, hrest]
          rfl
        simpa using ih hinside hu
    · obtain _ | ⟨f, front⟩ := front
      · exact absurd (List.head_eq_of_cons_eq h).symm (append_ne_singleton hu hv c)
      · obtain ⟨rfl, hrest⟩ := List.cons.inj h
        simpa using ih (hs.trans hrest) hu

/-- **A place whose two sides are kept together lies inside a segment.** -/
theorem exists_segment_of_joins {u v : Text} (hu : u ≠ []) (hv : v ≠ [])
    (h : joins (u.reverse ++ left) v = true) :
    ∃ front s s' back, segmentsFrom left (u ++ v) = front ++ (s ++ s') :: back ∧
      front.flatten ++ s = u ∧ s' ++ back.flatten = v ∧ s ≠ [] ∧ s' ≠ [] := by
  induction u generalizing left with
  | nil => exact absurd rfl hu
  | cons c u ih =>
    have hne : u ++ v ≠ [] := fun hnil => hv (List.append_eq_nil_iff.mp hnil).2
    obtain ⟨s, rest, hs, hsne, hflatten, hcons⟩ := exists_segmentsFrom_cons left c hne
    by_cases hu' : u = []
    · subst hu'
      have hjoins : joins (c :: left) ([] ++ v) = true := h
      rw [if_pos hjoins] at hcons
      exact ⟨[], [c], s, rest, hcons, rfl, hflatten, List.cons_ne_nil c [], hsne⟩
    · rw [List.reverse_cons, List.append_assoc, List.singleton_append] at h
      obtain ⟨front, s₁, s₂, back, hinside, hfront, hback, hs₁, hs₂⟩ := ih hu' h
      rw [hs] at hinside
      rw [List.cons_append, hcons]
      split
      · obtain _ | ⟨f, front⟩ := front
        · obtain ⟨rfl, rfl⟩ := List.cons.inj hinside
          refine ⟨[], c :: s₁, s₂, rest, rfl, ?_, hback, List.cons_ne_nil c s₁, hs₂⟩
          rw [← hfront]
          rfl
        · obtain ⟨rfl, rfl⟩ := List.cons.inj hinside
          refine ⟨(c :: s) :: front, s₁, s₂, back, rfl, ?_, hback, hs₁, hs₂⟩
          rw [← hfront]
          rfl
      · refine ⟨[c] :: front, s₁, s₂, back, by rw [hinside]; rfl, ?_, hback, hs₁, hs₂⟩
        rw [← hfront]
        rfl

/-! ## Tabs and line feeds -/

theorem ofChar_tab : WordClass.ofChar '\t' = .other := by decide

theorem isPictographic_tab : isPictographic '\t' = false := by decide

theorem ofChar_lf : WordClass.ofChar '\n' = .lf := by decide

/-- Nothing is kept with a tab behind it. -/
theorem joins_tab (a : Char) (left t : Text) : joins (a :: left) ('\t' :: t) = false := by
  have hwords : joinsWords (a :: left) '\t' t = false := by
    simp [joinsWords, ofChar_tab, isLetter, joinsLetters, joinsDigits, takesConnector]
  cases ha : WordClass.ofChar a <;>
    simp [joins, ofChar_tab, ha, hwords, isLineEnd, isAttached, isTied, isPictographic_tab]

/-- Only attached characters are kept with a tab in front of them. -/
theorem joins_of_tab (left : Text) (b : Char) (t : Text) :
    joins ('\t' :: left) (b :: t) = (WordClass.ofChar b).isAttached := by
  have hmain : mainClass ('\t' :: left) = .other := by
    rw [mainClass, skipAttached, List.dropWhile_cons_of_neg (by simp [ofChar_tab, isAttached])]
    simp only [ofChar_tab, ite_self]
  have hrun : flagRun ('\t' :: left) = 0 := by simp [flagRun, ofChar_tab, isAttached]
  have hwords : joinsWords ('\t' :: left) b t = false := by
    simp [joinsWords, hmain, hrun, isLetter, joinsLetters, joinsDigits, takesConnector]
  cases hb : WordClass.ofChar b <;>
    simp [joins, ofChar_tab, hb, hwords, isLineEnd, isAttached, isTied]

/-- Only a carriage return is kept with a line feed behind it. -/
theorem joins_lf (a : Char) (left t : Text) :
    joins (a :: left) ('\n' :: t) = (WordClass.ofChar a == .cr) := by
  cases ha : WordClass.ofChar a <;> simp [joins, ofChar_lf, ha, isLineEnd]

/-- Nothing is kept with a line feed in front of it. -/
theorem joins_of_lf (left : Text) (b : Char) (t : Text) :
    joins ('\n' :: left) (b :: t) = false := by
  simp [joins, ofChar_lf, isLineEnd]

/-- Nothing is kept with a carriage return behind it. -/
theorem joins_cr (h : WordClass.ofChar b = .cr) (a : Char) (left t : Text) :
    joins (a :: left) (b :: t) = false := by
  cases ha : WordClass.ofChar a <;> simp [joins, h, ha, isLineEnd]

theorem ofAscii_eq_cr (h : WordClass.ofAscii c = .cr) : c = '\r' := by
  simp only [WordClass.ofAscii] at h
  split at h
  · cases h
  split at h
  · cases h
  split at h <;> first | rfl | cases h

theorem ofChar_eq_cr (h : WordClass.ofChar c = .cr) : c = '\r' := by
  simp only [WordClass.ofChar] at h
  split at h
  · exact ofAscii_eq_cr h
  split at h
  · cases h
  split at h
  · cases h
  split at h
  · cases h
  split at h
  · next k ranges hfind =>
    subst h
    have hmem := List.mem_of_find?_eq_some hfind
    simp [WordClass.tables] at hmem
  · cases h

/-! ## Their segments -/

section Inside

variable {front back : List Text} {u v : Text}

/-- Neighbours in a segment are kept together. -/
theorem exists_joins_of_segments_eq (h : segments t = front ++ (u ++ a :: b :: v) :: back) :
    ∃ left right, joins (a :: left) (b :: right) = true := by
  have hinside : segments t = front ++ ((u ++ [a]) ++ b :: v) :: back := by simpa using h
  have hjoins := joins_of_segmentsFrom_eq hinside (by simp) (by simp)
  rw [List.reverse_concat] at hjoins
  exact ⟨_, _, hjoins⟩

/-- A tab comes first in its segment. -/
theorem eq_nil_of_tab (h : segments t = front ++ (u ++ '\t' :: v) :: back) : u = [] := by
  rcases List.eq_nil_or_concat' u with rfl | ⟨u, a, rfl⟩
  · rfl
  rw [List.append_assoc] at h
  obtain ⟨left, right, hjoins⟩ := exists_joins_of_segments_eq h
  rw [joins_tab] at hjoins
  cases hjoins

/-- A line feed comes last in its segment. -/
theorem eq_nil_of_lf (h : segments t = front ++ (u ++ '\n' :: v) :: back) : v = [] := by
  obtain _ | ⟨b, v⟩ := v
  · rfl
  obtain ⟨left, right, hjoins⟩ := exists_joins_of_segments_eq h
  rw [joins_of_lf] at hjoins
  cases hjoins

/-- In front of a line feed its segment has a carriage return, if anything. -/
theorem eq_cr_of_lf (h : segments t = front ++ (u ++ '\n' :: v) :: back) : u = [] ∨ u = ['\r'] := by
  rcases List.eq_nil_or_concat' u with rfl | ⟨u, a, rfl⟩
  · exact .inl rfl
  rw [List.append_assoc] at h
  obtain ⟨left, right, hjoins⟩ := exists_joins_of_segments_eq h
  rw [joins_lf, beq_iff_eq] at hjoins
  rcases List.eq_nil_or_concat' u with rfl | ⟨u, x, rfl⟩
  · exact .inr (by rw [ofChar_eq_cr hjoins]; rfl)
  rw [List.append_assoc] at h
  obtain ⟨left, right, hbefore⟩ := exists_joins_of_segments_eq h
  rw [joins_cr hjoins] at hbefore
  cases hbefore

end Inside

/-- **A segment with a tab or a line feed in it** is blank, or it is a tab with an attached
character behind. -/
theorem isBlank_or_eq_of_mem_segments {s : Text} (hs : s ∈ segments t) (hc : c ∈ s)
    (hblank : c = '\t' ∨ c = '\n') :
    isBlank s = true ∨
      ∃ d rest, s = '\t' :: d :: rest ∧ (WordClass.ofChar d).isAttached = true := by
  obtain ⟨front, back, hsegments⟩ := List.append_of_mem hs
  obtain ⟨u, v, rfl⟩ := List.append_of_mem hc
  rcases hblank with rfl | rfl
  · obtain rfl := eq_nil_of_tab hsegments
    obtain _ | ⟨d, v⟩ := v
    · exact .inl (by decide)
    · obtain ⟨left, right, hjoins⟩ := exists_joins_of_segments_eq hsegments
      rw [joins_of_tab] at hjoins
      exact .inr ⟨d, v, rfl, hjoins⟩
  · obtain rfl := eq_nil_of_lf hsegments
    rcases eq_cr_of_lf hsegments with rfl | rfl <;> exact .inl (by decide)

/-- **A tab and a character attached to it** are the head of a segment. -/
theorem exists_segment_of_tab (left : Text) {right : Text}
    (hc : (WordClass.ofChar c).isAttached = true) :
    ∃ front rest back,
      segments (left ++ '\t' :: c :: right) = front ++ ('\t' :: c :: rest) :: back ∧
        front.flatten = left := by
  have hjoins : joins ((left ++ ['\t']).reverse ++ []) (c :: right) = true := by
    rw [List.reverse_concat, List.append_nil, joins_of_tab, hc]
  obtain ⟨front, s, s', back, hsegments, hfront, hback, hs, hs'⟩ :=
    exists_segment_of_joins (by simp) (by simp) hjoins
  obtain ⟨u, x, rfl⟩ := (List.eq_nil_or_concat' s).resolve_left hs
  rw [← List.append_assoc] at hfront
  obtain ⟨hfront, hx⟩ := List.append_inj' hfront rfl
  obtain rfl : x = '\t' := by simpa using hx
  obtain _ | ⟨d, rest⟩ := s'
  · exact absurd rfl hs'
  obtain ⟨rfl, -⟩ := List.cons.inj hback
  have hinside : segments (left ++ '\t' :: d :: right) =
      front ++ (u ++ '\t' :: d :: rest) :: back := by
    simpa [segments] using hsegments
  obtain rfl := eq_nil_of_tab hinside
  exact ⟨front, rest, back, hinside, by simpa using hfront⟩

end MarkupTransfer.Text
