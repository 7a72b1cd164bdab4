import MarkupTransfer.Tag
/-!
# Tags found and tags read

Tags are found in running text by one grammar and read by a more lenient one. What is found can be
read.

* `tagLength_le`: a tag found at the head of a text is part of the text.
* `isSome_read?`: what is found as a tag can be read as one.
-/

namespace MarkupTransfer.Markup

theorem inside_append_fromClose (t : Text) : inside t ++ fromClose t = t :=
  List.takeWhile_append_dropWhile

theorem lengthThroughClose_le (t : Text) : lengthThroughClose t ≤ t.length := by
  have hlength := congrArg List.length (inside_append_fromClose t)
  unfold lengthThroughClose
  split
  · exact Nat.zero_le _
  · next h =>
    rw [h, List.length_append, List.length_cons] at hlength
    omega

theorem declarationTail_le (t : Text) : declarationTail t ≤ t.length := by
  have hlength := congrArg List.length (inside_append_fromClose t)
  unfold declarationTail
  split
  · exact Nat.zero_le _
  · next h =>
    rw [h, List.length_append, List.length_cons, List.length_cons] at hlength
    omega
  · next h =>
    rw [h, List.length_append, List.length_cons] at hlength
    split <;> omega

theorem headed_le (head : Nat) {tail n : Nat} (h : tail ≤ n) : headed head tail ≤ head + n := by
  unfold headed
  split <;> omega

/-- A tag found at the head of a text is part of the text. -/
theorem tagLength_le (t : Text) : tagLength t ≤ t.length := by
  unfold tagLength
  split
  · simp only [List.length_cons]
    omega
  · simp only [List.length_cons]
    omega
  · next c t _ =>
    have := headed_le 3 (declarationTail_le t)
    simp only [List.length_cons]
    split <;> omega
  · next c t =>
    have := headed_le 3 (lengthThroughClose_le t)
    simp only [List.length_cons]
    split <;> omega
  · next c t _ _ _ =>
    have := headed_le 2 (lengthThroughClose_le t)
    simp only [List.length_cons]
    split <;> omega
  · exact Nat.zero_le _

/-- Tags begin with an angle bracket or, at the end of a comment, with a hyphen. -/
theorem tagLength_eq_zero {c : Char} (hlt : c ≠ '<') (hhyphen : c ≠ '-') (t : Text) :
    tagLength (c :: t) = 0 := by
  unfold tagLength
  split <;> simp_all

/-- A tab or a line feed does not reach over a blank. -/
theorem blankTagLength_append_le (t r : Text) : blankTagLength (t ++ ' ' :: r) ≤ t.length := by
  cases t with
  | nil => exact Nat.le_refl 0
  | cons c t =>
    rw [List.cons_append, blankTagLength, List.length_cons]
    split <;> omega

/-! ## Reading what was found -/

theorem isSome_nameAt?_iff {c : Char} {t : Text} :
    (nameAt? (c :: t)).isSome = true ↔ isNameStart c = true := by
  rw [nameAt?]
  split <;> simp [*]

theorem ne_of_isNameStart {c d : Char} (h : isNameStart c = true) (hd : isNameStart d = false) :
    c ≠ d := by
  rintro rfl
  simp [h] at hd

theorem exists_of_headed_pos {head tail : Nat} (h : 0 < headed head tail) :
    ∃ n, headed head tail = n + 1 + head := by
  unfold headed at h ⊢
  split at h
  · omega
  · next htail => exact ⟨tail - 1, by rw [if_neg htail]; omega⟩

theorem isSome_read?_declaration {c : Char} (h : isNameStart c = true) (t : Text) :
    (Tag.read? ('<' :: '!' :: c :: t)).isSome = true := by
  have hhyphen : c ≠ '-' := ne_of_isNameStart h (by decide)
  simp [Tag.read?, hhyphen, isSome_nameAt?_iff.mpr h]

theorem isSome_read?_closing {c : Char} (h : isNameStart c = true) (t : Text) :
    (Tag.read? ('<' :: '/' :: c :: t)).isSome = true := by
  simp [Tag.read?, isSome_nameAt?_iff.mpr h]

theorem isSome_read?_opening {c d : Char} (h : isNameStart c = true) (t : Text) :
    (Tag.read? ('<' :: c :: d :: t)).isSome = true := by
  have hbang : c ≠ '!' := ne_of_isNameStart h (by decide)
  have hslash : c ≠ '/' := ne_of_isNameStart h (by decide)
  simp [Tag.read?, hbang, hslash, isSome_nameAt?_iff.mpr h]

/-- **What is found as a tag can be read as one.** -/
theorem isSome_read? {m rest : Text} (h : tagLength (m ++ rest) = m.length) (hm : m ≠ []) :
    (Tag.read? m).isSome = true := by
  have hpos : 0 < m.length := List.length_pos_iff.mpr hm
  have htake : m = (m ++ rest).take (tagLength (m ++ rest)) := by rw [h, List.take_left]
  rw [← h] at hpos
  generalize m ++ rest = t at htake hpos
  rw [htake]
  revert hpos
  clear htake
  unfold tagLength
  split
  · exact fun _ => rfl
  · exact fun _ => rfl
  · next c t _ =>
    split
    · next hc =>
      intro hpos
      obtain ⟨n, hn⟩ := exists_of_headed_pos hpos
      rw [hn]
      exact isSome_read?_declaration hc _
    · exact fun hpos => absurd hpos (Nat.lt_irrefl 0)
  · next c t =>
    split
    · next hc =>
      intro hpos
      obtain ⟨n, hn⟩ := exists_of_headed_pos hpos
      rw [hn]
      exact isSome_read?_closing hc _
    · exact fun hpos => absurd hpos (Nat.lt_irrefl 0)
  · next c t _ _ _ =>
    split
    · next hc =>
      intro hpos
      obtain ⟨n, hn⟩ := exists_of_headed_pos hpos
      rw [hn]
      cases t with
      | nil => cases hpos
      | cons d t => exact isSome_read?_opening hc _
    · exact fun hpos => absurd hpos (Nat.lt_irrefl 0)
  · exact fun hpos => absurd hpos (Nat.lt_irrefl 0)

end MarkupTransfer.Markup
