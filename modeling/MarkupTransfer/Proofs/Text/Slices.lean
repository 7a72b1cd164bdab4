import MarkupTransfer.Text.Basic
/-!
# Slices of a text

What is cut out of a text by two offsets. Offsets need not stand at the edge of a character: a
character belongs to the slice in which it ends.

* `slice_append_slice`: slices that follow each other make up one slice.
* `slice_size`: the slice at the place of a part is that part.
* `exists_eq_append_of_isBoundary`: at the edge of a character a text falls in two.
* `exists_eq_append_of_mem_slice`: a character of a slice stands between the two offsets.
-/

namespace MarkupTransfer.Text

/-! ## Offsets of prefixes -/

theorem isBoundary_append_size (s t : Text) : isBoundary (s ++ t) (size s) = true := by
  induction s with
  | nil => cases t <;> simp [isBoundary]
  | cons c s ih => simp [isBoundary, ih]

theorem isBoundary_size_of_append {t : Text} (front back : Text) (h : t = front ++ back) :
    isBoundary t (size front) = true := by
  rw [h, isBoundary_append_size]

/-- An offset at the edge of a character is the size of a prefix. -/
theorem exists_eq_append_of_isBoundary {t : Text} {n : Nat} (h : isBoundary t n = true) :
    ∃ front back, t = front ++ back ∧ size front = n := by
  induction t generalizing n with
  | nil => exact ⟨[], [], rfl, (beq_iff_eq.mp h).symm⟩
  | cons c t ih =>
    simp only [isBoundary, Bool.or_eq_true, beq_iff_eq, Bool.and_eq_true, decide_eq_true_eq] at h
    rcases h with rfl | ⟨hle, h⟩
    · exact ⟨[], c :: t, rfl, rfl⟩
    · obtain ⟨front, back, rfl, hsize⟩ := ih h
      exact ⟨c :: front, back, rfl, by rw [size_cons]; omega⟩

theorem size_eq_zero {t : Text} : size t = 0 ↔ t = [] := by
  cases t with
  | nil => simp
  | cons c t =>
    have := c.utf8Size_pos
    simp only [size_cons, reduceCtorEq, iff_false]
    omega

theorem size_pos {t : Text} (h : t ≠ []) : 0 < size t :=
  Nat.pos_of_ne_zero (mt size_eq_zero.mp h)

/-- Of two prefixes of a text the smaller one is a prefix of the other. -/
theorem exists_eq_append_of_size_le {a b x y : Text} (h : a ++ x = b ++ y)
    (hle : size a ≤ size b) : ∃ mid, b = a ++ mid ∧ x = mid ++ y := by
  rcases List.append_eq_append_iff.mp h with ⟨mid, rfl, rfl⟩ | ⟨mid, rfl, rfl⟩
  · exact ⟨mid, rfl, rfl⟩
  · rw [size_append] at hle
    obtain rfl := size_eq_zero.mp (show size mid = 0 by omega)
    exact ⟨[], by simp, rfl⟩

theorem before_of_size_le {t : Text} {n : Nat} (h : size t ≤ n) : before t n = t := by
  induction t generalizing n with
  | nil => rfl
  | cons c t ih =>
    rw [size_cons] at h
    rw [before, if_pos (by omega), ih (by omega)]

theorem after_of_size_le {t : Text} {n : Nat} (h : size t ≤ n) : after t n = [] := by
  induction t generalizing n with
  | nil => rfl
  | cons c t ih =>
    rw [size_cons] at h
    rw [after, if_pos (by omega), ih (by omega)]

theorem size_before_le (t : Text) (n : Nat) : size (before t n) ≤ n := by
  induction t generalizing n with
  | nil => simp [before]
  | cons c t ih =>
    rw [before]
    split
    · have := ih (n - c.utf8Size)
      rw [size_cons]
      omega
    · simp

theorem before_before (t : Text) {m n : Nat} (h : m ≤ n) :
    before (before t n) m = before t m := by
  induction t generalizing m n with
  | nil => rfl
  | cons c t ih =>
    by_cases hm : c.utf8Size ≤ m
    · simp [before, hm, show c.utf8Size ≤ n by omega, ih (Nat.sub_le_sub_right h c.utf8Size)]
    · by_cases hn : c.utf8Size ≤ n <;> simp [before, hm, hn]

/-! ## Slices -/

theorem slice_size (s m t : Text) : slice (s ++ m ++ t) (size s) (size s + size m) = m := by
  rw [slice, ← size_append, before_append_size, after_append_size]

theorem slice_of_le (t : Text) {start stop : Nat} (h : stop ≤ start) : slice t start stop = [] :=
  after_of_size_le (Nat.le_trans (size_before_le t stop) h)

theorem before_append_slice (t : Text) {start stop : Nat} (h : start ≤ stop) :
    before t start ++ slice t start stop = before t stop := by
  rw [slice, ← before_before t h, before_append_after]

/-- Slices that follow each other make up one slice. -/
theorem slice_append_slice (t : Text) {start mid stop : Nat} (h₁ : start ≤ mid) (h₂ : mid ≤ stop) :
    slice t start mid ++ slice t mid stop = slice t start stop := by
  have h : before t start ++ (slice t start mid ++ slice t mid stop) =
      before t start ++ slice t start stop := by
    rw [← List.append_assoc, before_append_slice t h₁, before_append_slice t h₂,
      before_append_slice t (Nat.le_trans h₁ h₂)]
  exact List.append_cancel_left h

/-- The rest of a text may begin anywhere, also behind its end. -/
theorem slice_append_rest (t : Text) {start mid : Nat} (h : start ≤ mid) :
    slice t start mid ++ slice t mid (size t) = slice t start (size t) := by
  rcases Nat.le_total mid (size t) with hm | hm
  · exact slice_append_slice t h hm
  · rw [slice_of_le t hm, List.append_nil, slice, slice, before_of_size_le hm,
      before_of_size_le (Nat.le_refl _)]

theorem slice_zero (t : Text) : slice t 0 (size t) = t := by
  rw [slice, before_of_size_le (Nat.le_refl _), after_zero]

theorem exists_eq_append_of_mem_after {t : Text} {n : Nat} {c : Char} (h : c ∈ after t n) :
    ∃ s r, t = s ++ c :: r ∧ n < size s + c.utf8Size := by
  induction t generalizing n with
  | nil => simp [after] at h
  | cons d t ih =>
    rw [after] at h
    split at h
    · obtain ⟨s, r, hs, hn⟩ := ih h
      exact ⟨d :: s, r, by rw [hs, List.cons_append], by rw [size_cons]; omega⟩
    · next hd =>
      obtain ⟨s, r, hs⟩ := List.append_of_mem h
      refine ⟨s, r, hs, ?_⟩
      cases s with
      | nil =>
        obtain ⟨rfl, -⟩ := List.cons.inj hs
        simpa using hd
      | cons e s =>
        obtain ⟨rfl, -⟩ := List.cons.inj hs
        rw [size_cons]
        omega

/-- A character of a slice stands in the text, ends behind the first offset and no later than the
second. -/
theorem exists_eq_append_of_mem_slice {t : Text} {start stop : Nat} {c : Char}
    (h : c ∈ slice t start stop) :
    ∃ s r, t = s ++ c :: r ∧ start < size s + c.utf8Size ∧ size s + c.utf8Size ≤ stop := by
  obtain ⟨s, r, hs, hstart⟩ := exists_eq_append_of_mem_after h
  refine ⟨s, r ++ after t stop, ?_, hstart, ?_⟩
  · rw [← List.cons_append, ← List.append_assoc, ← hs, before_append_after]
  · have := size_before_le t stop
    rw [hs, size_append, size_cons] at this
    omega

end MarkupTransfer.Text
