import Mathlib.Data.List.TakeWhile
import MarkupTransfer.Text.Segment
/-!
# Segments with a space in them

A row of spaces is kept together, and nothing but a character attached to its end is added to it. So
a segment with a space in it is blank, unless an attached character stands behind its row of spaces:
no such character is white space.

* `isBlankChar_of_isSpace`, `isBlankChar_of_isAttached`: spaces are white space, attached characters
  are not.
* `exists_segments_append`: a text is cut where its two sides are not kept together.
* `exists_segment_of_space`: the segment around a space, and when it is blank.
-/

namespace MarkupTransfer.Text

open WordClass

/-- Characters that are kept together in rows. -/
def isSpace (c : Char) : Bool := WordClass.ofChar c == .segmentSpace

/-- Whether a text begins with spaces and a character attached to them, if only to nothing. -/
def attaches (t : Text) : Bool :=
  (t.dropWhile isSpace).head?.any fun c => (WordClass.ofChar c).isAttached

variable {a b c : Char} {left t : Text}

/-! ## Spaces and attached characters -/

theorem ofAscii_eq_segmentSpace (h : WordClass.ofAscii c = .segmentSpace) : c = ' ' := by
  simp only [WordClass.ofAscii] at h
  split at h
  · cases h
  split at h
  · cases h
  split at h <;> first | rfl | cases h

theorem contains_of_isSpace (h : isSpace c = true) :
    CodeRanges.contains segmentSpaceRanges c.toNat = true := by
  simp only [isSpace, beq_iff_eq, WordClass.ofChar] at h
  split at h
  · rw [ofAscii_eq_segmentSpace h]
    decide
  split at h
  · cases h
  split at h
  · cases h
  split at h
  · cases h
  split at h
  · next k ranges hfind =>
    subst h
    have hmem := List.mem_of_find?_eq_some hfind
    have hcontains := List.find?_some hfind
    simp only [WordClass.tables, List.mem_cons, Prod.mk.injEq, reduceCtorEq, false_and, true_and,
      List.not_mem_nil, or_false, false_or] at hmem
    rwa [hmem] at hcontains
  · cases h

/-- The code points of spaces. -/
def spaceCodes : List Nat :=
  [0x20, 0x1680, 0x2000, 0x2001, 0x2002, 0x2003, 0x2004, 0x2005, 0x2006, 0x2008, 0x2009, 0x200A,
    0x205F, 0x3000]

theorem mem_spaceCodes (h : isSpace c = true) : c.toNat ∈ spaceCodes := by
  have hcontains := contains_of_isSpace h
  simp only [CodeRanges.contains, segmentSpaceRanges] at hcontains
  simp only [spaceCodes, List.mem_cons, List.not_mem_nil, or_false]
  grind

theorem isBlankChar_of_isSpace (h : isSpace c = true) : isBlankChar c = true := by
  have hmem := mem_spaceCodes h
  simp only [spaceCodes, List.mem_cons, List.not_mem_nil, or_false] at hmem
  simp only [isBlankChar, Bool.or_eq_true, Bool.and_eq_true, decide_eq_true_eq, beq_iff_eq]
  omega

theorem isPictographic_of_isSpace (h : isSpace c = true) : isPictographic c = false := by
  have hall : ∀ n ∈ spaceCodes, CodeRanges.contains pictographicRanges n = false := by decide
  exact hall c.toNat (mem_spaceCodes h)

/-- The code points of white space. -/
def blankCodes : List Nat :=
  [9, 10, 11, 12, 13, 0x20, 0x85, 0xA0, 0x1680, 0x2000, 0x2001, 0x2002, 0x2003, 0x2004, 0x2005,
    0x2006, 0x2007, 0x2008, 0x2009, 0x200A, 0x2028, 0x2029, 0x202F, 0x205F, 0x3000]

theorem mem_blankCodes (h : isBlankChar c = true) : c.toNat ∈ blankCodes := by
  simp only [isBlankChar, Bool.or_eq_true, Bool.and_eq_true, decide_eq_true_eq, beq_iff_eq] at h
  simp only [blankCodes, List.mem_cons, List.not_mem_nil, or_false]
  omega

/-- No attached character is white space. -/
theorem isBlankChar_of_isAttached (h : (WordClass.ofChar c).isAttached = true) :
    isBlankChar c = false := by
  have hall : ∀ n ∈ blankCodes, (WordClass.ofChar (Char.ofNat n)).isAttached = false := by
    decide +kernel
  cases hblank : isBlankChar c with
  | false => rfl
  | true =>
    have := hall c.toNat (mem_blankCodes hblank)
    rw [Char.ofNat_toNat, h] at this
    cases this

/-! ## Where spaces are kept together -/

theorem ofChar_eq_of_isSpace (h : isSpace c = true) : WordClass.ofChar c = .segmentSpace :=
  beq_iff_eq.mp h

theorem mainClass_of_isSpace (h : isSpace a = true) (left : Text) :
    mainClass (a :: left) = .other ∨ mainClass (a :: left) = .segmentSpace := by
  have hclass := ofChar_eq_of_isSpace h
  rw [mainClass, skipAttached, List.dropWhile_cons_of_neg (by simp [hclass, isAttached])]
  simp only [hclass]
  split
  · exact .inl rfl
  · exact .inr rfl

/-- Behind a space only spaces and attached characters are kept with what stands before. -/
theorem joins_of_isSpace (h : isSpace a = true) (left : Text) (b : Char) (t : Text) :
    joins (a :: left) (b :: t) = (isSpace b || (WordClass.ofChar b).isAttached) := by
  have hclass := ofChar_eq_of_isSpace h
  have hrun : flagRun (a :: left) = 0 := by simp [flagRun, hclass, isAttached]
  have hwords : joinsWords (a :: left) b t = false := by
    rcases mainClass_of_isSpace h left with hmain | hmain <;>
      simp [joinsWords, hmain, hrun, isLetter, joinsLetters, joinsDigits, takesConnector]
  cases hb : WordClass.ofChar b <;>
    simp [joins, hclass, hb, hwords, isSpace, isLineEnd, isAttached, isTied]

/-- In front of a space only a space is kept with it. -/
theorem joins_isSpace (h : isSpace b = true) (a : Char) (left t : Text) :
    joins (a :: left) (b :: t) = isSpace a := by
  have hclass := ofChar_eq_of_isSpace h
  have hwords : joinsWords (a :: left) b t = false := by
    simp [joinsWords, hclass, isLetter, joinsLetters, joinsDigits, takesConnector]
  cases ha : WordClass.ofChar a <;>
    simp [joins, hclass, ha, hwords, isSpace, isLineEnd, isAttached, isTied,
      isPictographic_of_isSpace h]

/-! ## Cutting a text -/

/-- **A text is cut where its two sides are not kept together.** The segments of the right side are
those it has behind the left one. -/
theorem exists_segments_append {u v : Text} (h : u = [] ∨ joins (u.reverse ++ left) v = false) :
    ∃ front, segmentsFrom left (u ++ v) = front ++ segmentsFrom (u.reverse ++ left) v ∧
      front.flatten = u := by
  induction u generalizing left with
  | nil => exact ⟨[], rfl, rfl⟩
  | cons c u ih =>
    have hreverse : (c :: u).reverse ++ left = u.reverse ++ c :: left := by simp
    rw [hreverse] at h ⊢
    rw [List.cons_append, segmentsFrom]
    by_cases hu : u = []
    · subst hu
      have hcut : joins (c :: left) v = false := by simpa using h
      cases hv : segmentsFrom (c :: left) v with
      | nil => exact ⟨[[c]], by simp [hv], rfl⟩
      | cons s rest => exact ⟨[[c]], by simp [hv, hcut], rfl⟩
    · have hcut : joins (u.reverse ++ c :: left) v = false := h.resolve_left (by simp)
      obtain ⟨front, hfront, hflatten⟩ := ih (.inr hcut)
      rw [hfront]
      cases front with
      | nil => exact absurd hflatten.symm hu
      | cons s front =>
        rw [List.cons_append]
        split
        · next hnil => cases hnil
        · next s' rest hcons =>
          obtain ⟨rfl, rfl⟩ := List.cons.inj hcons
          split
          · exact ⟨(c :: s) :: front, rfl, by rw [← hflatten]; rfl⟩
          · exact ⟨[c] :: s :: front, rfl, by rw [← hflatten]; rfl⟩

/-- A row of spaces is kept together, and with an attached character behind it. -/
theorem exists_segment_of_spaces {z : Text} (hz : ∀ c ∈ z, isSpace c = true) (hne : z ≠ [])
    (left v : Text) (hv : v.head?.any isSpace = false) :
    ∃ behind rest, segmentsFrom left (z ++ v) = (z ++ behind) :: rest ∧ behind <+: v ∧
      (behind = [] ↔ v.head?.any (fun c => (WordClass.ofChar c).isAttached) = false) := by
  induction z generalizing left with
  | nil => exact absurd rfl hne
  | cons a z ih =>
    have ha := hz a (by simp)
    rw [List.cons_append, segmentsFrom]
    by_cases hnil : z = []
    · subst hnil
      cases v with
      | nil => exact ⟨[], [], rfl, List.prefix_rfl, by simp⟩
      | cons b t =>
        have hb : isSpace b = false := by simpa using hv
        have hjoins := joins_of_isSpace ha left b t
        rw [hb, Bool.false_or] at hjoins
        have hflatten := flatten_segmentsFrom (a :: left) (b :: t)
        have hsegments := segmentsFrom_ne_nil (a :: left) (b :: t)
        rw [List.nil_append]
        cases hs : segmentsFrom (a :: left) (b :: t) with
        | nil =>
          rw [hs] at hflatten
          cases hflatten
        | cons s rest =>
          rw [hs] at hflatten hsegments
          simp only [hjoins, List.head?_cons, Option.any_some]
          cases hattached : (WordClass.ofChar b).isAttached with
          | true =>
            refine ⟨s, rest, rfl, ⟨rest.flatten, hflatten⟩, ?_⟩
            simpa using hsegments s (by simp)
          | false => exact ⟨[], s :: rest, rfl, List.nil_prefix, by simp⟩
    · obtain ⟨behind, rest, hsegments, hinit, hbehind⟩ :=
        ih (fun c hc => hz c (by simp [hc])) hnil (a :: left)
      cases z with
      | nil => exact absurd rfl hnil
      | cons b z =>
        have hjoins : joins (a :: left) (b :: z ++ v) = true := by
          rw [List.cons_append, joins_of_isSpace ha, hz b (by simp), Bool.true_or]
        rw [hsegments]
        simp only [hjoins, if_true]
        exact ⟨behind, rest, rfl, hinit, hbehind⟩

theorem head?_dropWhile_isSpace (v : Text) : (v.dropWhile isSpace).head?.any isSpace = false := by
  have h := List.head?_dropWhile_not isSpace v
  cases hv : (v.dropWhile isSpace).head? with
  | none => rfl
  | some c =>
    rw [hv] at h
    simpa using h

/-- A text is divided in front of its last row of spaces. -/
theorem exists_spaces_behind (u : Text) :
    ∃ front spaces, u = front ++ spaces ∧ (∀ c ∈ spaces, isSpace c = true) ∧
      front.reverse.head?.any isSpace = false := by
  refine ⟨(u.reverse.dropWhile isSpace).reverse, (u.reverse.takeWhile isSpace).reverse, ?_, ?_, ?_⟩
  · rw [← List.reverse_append, List.takeWhile_append_dropWhile, List.reverse_reverse]
  · intro c hc
    exact List.mem_takeWhile_imp (List.mem_reverse.mp hc)
  · rw [List.reverse_reverse]
    exact head?_dropWhile_isSpace _

/-- A row of spaces with what is kept behind it is blank just if nothing is. -/
theorem isBlank_append_iff {z behind v : Text} (hz : ∀ c ∈ z, isSpace c = true)
    (hinit : behind <+: v)
    (hbehind : behind = [] ↔ v.head?.any (fun c => (WordClass.ofChar c).isAttached) = false) :
    isBlank (z ++ behind) = true ↔ behind = [] := by
  have hblank : z.all isBlankChar = true :=
    List.all_eq_true.mpr fun c hc => isBlankChar_of_isSpace (hz c hc)
  rw [isBlank, List.all_append, hblank, Bool.true_and]
  constructor
  · intro h
    cases behind with
    | nil => rfl
    | cons c behind =>
      obtain ⟨rest, rfl⟩ := hinit
      refine hbehind.mpr ?_
      have hc : isBlankChar c = true := List.all_eq_true.mp h c (by simp)
      cases hattached : (WordClass.ofChar c).isAttached with
      | false => simp [hattached]
      | true =>
        rw [isBlankChar_of_isAttached hattached] at hc
        cases hc
  · rintro rfl
    rfl

/-- **The segment around a space is blank unless something is attached behind.** -/
theorem exists_segment_of_space (u v : Text) :
    ∃ front before behind back,
      segments (u ++ ' ' :: v) = front ++ (before ++ ' ' :: behind) :: back ∧
      front.flatten ++ before = u ∧
      (isBlank (before ++ ' ' :: behind) = true ↔ attaches v = false) := by
  obtain ⟨front, spaces, rfl, hspaces, hfront⟩ := exists_spaces_behind u
  have hz : ∀ c ∈ spaces ++ ' ' :: v.takeWhile isSpace, isSpace c = true := by
    intro c hc
    rcases List.mem_append.mp hc with hc | hc
    · exact hspaces c hc
    · rcases List.mem_cons.mp hc with rfl | hc
      · rfl
      · exact List.mem_takeWhile_imp hc
  have htext : front ++ spaces ++ ' ' :: v =
      front ++ ((spaces ++ ' ' :: v.takeWhile isSpace) ++ v.dropWhile isSpace) := by
    simp [List.takeWhile_append_dropWhile]
  have hcut : front = [] ∨ joins (front.reverse ++ [])
      ((spaces ++ ' ' :: v.takeWhile isSpace) ++ v.dropWhile isSpace) = false := by
    cases hreverse : front.reverse with
    | nil => exact .inl (List.reverse_eq_nil_iff.mp hreverse)
    | cons a left =>
      have ha : isSpace a = false := by simpa [hreverse] using hfront
      refine .inr ?_
      cases spaces with
      | nil => exact (joins_isSpace rfl a _ _).trans ha
      | cons b spaces => exact (joins_isSpace (hz b (by simp)) a _ _).trans ha
  obtain ⟨cut, hsegments, hflatten⟩ := exists_segments_append hcut
  obtain ⟨behind, back, hrow, hinit, hbehind⟩ := exists_segment_of_spaces hz (by simp)
    (front.reverse ++ []) (v.dropWhile isSpace) (head?_dropWhile_isSpace v)
  refine ⟨cut, spaces, v.takeWhile isSpace ++ behind, back, ?_, by rw [hflatten], ?_⟩
  · rw [segments, htext, hsegments, hrow]
    simp
  · have hblank := isBlank_append_iff hz hinit hbehind
    rw [List.append_assoc, List.cons_append] at hblank
    rw [hblank, hbehind, attaches]

end MarkupTransfer.Text
