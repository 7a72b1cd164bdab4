import MarkupTransfer.Proofs.Provenance.Starts
/-!
# What a replacement leaves alone

A replacement cuts the row of pieces twice and puts a new piece between the two cuts. In front of
the first cut a piece keeps where it begins and where it ends, even if only its head is left, so
nothing there is found elsewhere than before. Behind the second cut the same is true of ends, and of
beginnings up to one exception: what a cut leaves of a text put in stands for the end of what the
whole text stood for, so ranges that begin in it begin further right in the source than they did.

* `stopIn_takeFront`, `stopIn_dropFront`: where ranges end on either side of a cut.
* `Provenance.stopOf_replace_of_le`, `Provenance.stopOf_replace_behind`: the same for a replacement.
* `Provenance.IsCutThrough`: the places where the exception applies.
* `Provenance.replace_local`: what is found where it was before.
-/

namespace MarkupTransfer

namespace Piece

variable {ps qs : List Piece} {sourceSize : Nat}

/-! ## Where ranges end on either side of a cut -/

theorem stopIn_append_of_le {pos : Nat} (hpos : 0 < pos) (h : pos ≤ totalLength ps) :
    stopIn sourceSize (ps ++ qs) pos = stopIn sourceSize ps pos := by
  induction ps generalizing pos with
  | nil =>
    simp only [totalLength] at h
    omega
  | cons p ps ih =>
    simp only [totalLength] at h
    rw [List.cons_append, stopIn, stopIn]
    split
    · rfl
    · exact ih (by omega) (by omega)

theorem stopIn_append (ps qs : List Piece) {n : Nat} (hn : 0 < n) :
    stopIn sourceSize (ps ++ qs) (totalLength ps + n) = stopIn sourceSize qs n := by
  induction ps with
  | nil => simp [totalLength]
  | cons p ps ih =>
    rw [List.cons_append, stopIn, totalLength, if_neg (by omega),
      show p.length + totalLength ps + n - p.length = totalLength ps + n by omega, ih]

theorem stopIn_takeFront {n pos : Nat} (hpos : 0 < pos) (h : pos ≤ n) (hn : n ≤ totalLength ps) :
    stopIn sourceSize (takeFront n ps) pos = stopIn sourceSize ps pos := by
  induction ps generalizing n pos with
  | nil =>
    simp only [totalLength] at hn
    omega
  | cons p ps ih =>
    simp only [totalLength] at hn
    rw [takeFront, if_neg (by omega)]
    split
    · rw [stopIn, stopIn]
      split
      · rfl
      · exact ih (by omega) (by omega) (by omega)
    · rw [stopIn, length_head, if_pos h, stopAt_head, stopIn, if_pos (by omega)]

/-- Ranges that end behind a cut end where they did, also if the cut went through a text put in. -/
theorem stopIn_dropFront (n : Nat) {k : Nat} (hk : 0 < k) :
    stopIn sourceSize (dropFront n ps) k = stopIn sourceSize ps (n + k) := by
  induction ps generalizing n with
  | nil => rfl
  | cons p ps ih =>
    by_cases hn : n = 0
    · rw [hn, dropFront_zero, Nat.zero_add]
    rw [dropFront, if_neg hn]
    split
    · next hle =>
      rw [ih, stopIn, if_neg (by omega), show n + k - p.length = n - p.length + k by omega]
    · next hlt =>
      rw [stopIn, stopIn, length_tail, stopAt_tail]
      by_cases hin : k ≤ p.length - n
      · rw [if_pos hin, if_pos (by omega)]
      · rw [if_neg hin, if_neg (by omega), show k - (p.length - n) = n + k - p.length by omega]

end Piece

namespace Provenance

open Piece

variable {m : Provenance} {start stop : Nat}

/-! ## After a replacement -/

theorem stopOf_replace_of_le (hstart : start ≤ m.size) (length : Nat) {pos : Nat}
    (h : pos ≤ start) : (m.replace start stop length).stopOf pos = m.stopOf pos := by
  have hsize := size_takeFront start m.pieces hstart
  rw [stopOf, stopOf]
  split
  · rfl
  · rw [replace, List.append_assoc, stopIn_append_of_le (by omega) (by omega),
      stopIn_takeFront (by omega) h hstart]

theorem stopOf_replace_behind (hstart : start ≤ m.size) (length : Nat) {k : Nat} (hk : 0 < k) :
    (m.replace start stop length).stopOf (start + length + k) = m.stopOf (stop + k) := by
  rw [stopOf, if_neg (by omega), stopOf, if_neg (by omega), replace,
    ← totalLength_replaced hstart stop length, stopIn_append _ _ hk, stopIn_dropFront stop hk]

/-- A place behind a cut lies in what the cut leaves of a text put in. -/
def IsCutThrough (m : Provenance) (cut pos : Nat) : Prop :=
  ∃ front length first last back, m.pieces = front ++ .replaced length first last :: back ∧
    totalLength front < cut ∧ cut ≤ pos ∧ pos < totalLength front + length

/-- Ranges that begin in what a cut leaves of a text put in began where the text does, and begin now
where it ends. -/
theorem startOf_replace_of_cut (h : ∀ p ∈ m.pieces, 0 < p.length) (hstart : start ≤ m.size)
    (length : Nat) {front back : List Piece} {n first last : Nat}
    (hpieces : m.pieces = front ++ .replaced n first last :: back) (hcut : totalLength front < stop)
    {k : Nat} (hk : stop + k < totalLength front + n) :
    m.startOf (stop + k) = first ∧
      (m.replace start stop length).startOf (start + length + k) = last := by
  obtain ⟨i, rfl⟩ := Nat.exists_eq_add_of_lt hcut
  have hcovers : ∀ p ∈ front, 0 < p.length := fun p hp => h p (by simp [hpieces, hp])
  constructor
  · rw [startOf, hpieces, Nat.add_assoc, Nat.add_assoc, startIn_append, startIn_replaced_cons,
      if_pos (by omega)]
  · have hdrop : dropFront (totalLength front + i + 1) m.pieces =
        .replaced (n - (i + 1)) last last :: back := by
      rw [hpieces, Nat.add_assoc, dropFront_append hcovers,
        dropFront_inside _ (Nat.succ_pos i) (by simp only [Piece.length]; omega)]
      rfl
    rw [startOf_replace_behind hstart, hdrop, startIn_replaced_cons, if_pos (by omega)]

/-- All other ranges behind a replacement begin where they did. -/
theorem startOf_replace_of_not_cut (h : ∀ p ∈ m.pieces, 0 < p.length) (hstart : start ≤ m.size)
    (length : Nat) {k : Nat} (hcut : ¬ m.IsCutThrough stop (stop + k)) :
    (m.replace start stop length).startOf (start + length + k) = m.startOf (stop + k) := by
  rw [startOf_replace_behind hstart]
  rcases startIn_dropFront h stop with hsame | ⟨front, n, first, last, back, j, hpieces, hj, hlt,
    rfl, hdrop⟩
  · exact hsame k
  · have hbehind : n ≤ j + k := by
      refine Nat.not_lt.mp fun hin => hcut ⟨front, n, first, last, back, hpieces, ?_, ?_, ?_⟩ <;>
        omega
    rw [hdrop, startOf, hpieces, Nat.add_assoc, startIn_append, startIn_replaced_cons,
      startIn_replaced_cons, if_neg (by omega), if_neg (by omega),
      show j + k - n = k - (n - j) by omega]

/-! ## The whole working text -/

/-- **A replacement is local, but for the rest of a text that it cuts through.** Places in front of
the replaced range are found where they were, as ends up to and including the place where it begins.
Places behind it move along with the text and as ends are found where they were. As beginnings they
are too, unless the replaced range ends inside a text put in and the place lies in the rest of it:
such a place was found where that text begins in the source, and is found now where it ends. -/
theorem replace_local {n : Nat} (h : Reachable n m) (hle : start ≤ stop) (hstop : stop ≤ m.size)
    (length : Nat) :
    (∀ pos, pos < start → (m.replace start stop length).startOf pos = m.startOf pos) ∧
    (∀ pos, pos ≤ start → (m.replace start stop length).stopOf pos = m.stopOf pos) ∧
    (∀ pos, stop < pos → pos ≤ m.size →
      (m.replace start stop length).stopOf (pos - stop + start + length) = m.stopOf pos) ∧
    (∀ pos, stop ≤ pos → pos ≤ m.size → ¬ m.IsCutThrough stop pos →
      (m.replace start stop length).startOf (pos - stop + start + length) = m.startOf pos) ∧
    ∀ front k first last back pos, m.pieces = front ++ .replaced k first last :: back →
      totalLength front < stop → stop ≤ pos → pos < totalLength front + k →
        first ≤ last ∧ m.startOf pos = first ∧
          (m.replace start stop length).startOf (pos - stop + start + length) = last := by
  have hstart := Nat.le_trans hle hstop
  have hcovers := h.isOrdered.length_pos
  have hmoved : ∀ k, stop + k - stop + start + length = start + length + k := fun k => by omega
  refine ⟨fun pos hpos => startOf_replace_of_lt hstart length hpos,
    fun pos hpos => stopOf_replace_of_le hstart length hpos, fun pos hpos _ => ?_,
    fun pos hpos _ hcut => ?_, fun front k first last back pos hpieces hfront hpos hlt => ?_⟩
  · obtain ⟨k, rfl⟩ := Nat.exists_eq_add_of_le (Nat.le_of_lt hpos)
    rw [hmoved, stopOf_replace_behind hstart length (by omega)]
  · obtain ⟨k, rfl⟩ := Nat.exists_eq_add_of_le hpos
    rw [hmoved, startOf_replace_of_not_cut hcovers hstart length hcut]
  · obtain ⟨j, rfl⟩ := Nat.exists_eq_add_of_le hpos
    have hforward := h.isOrdered.forward (.replaced k first last) (by simp [hpieces])
    rw [hmoved]
    exact ⟨hforward, startOf_replace_of_cut hcovers hstart length hpieces hfront hlt⟩

theorem replace_local_replacedTwice :
    Reachable 11 replacedTwice ∧ (2 ≤ 2 ∧ 2 ≤ replacedTwice.size) ∧
    (1 < 2 ∧ (replacedTwice.replace 2 2 3).startOf 1 = replacedTwice.startOf 1) ∧
    (2 ≤ 2 ∧ (replacedTwice.replace 2 2 3).stopOf 2 = replacedTwice.stopOf 2) ∧
    (2 < 4 ∧ (replacedTwice.replace 2 2 3).stopOf (4 - 2 + 2 + 3) = replacedTwice.stopOf 4) ∧
    (¬ replacedTwice.IsCutThrough 2 4 ∧
      (replacedTwice.replace 2 2 3).startOf (4 - 2 + 2 + 3) = replacedTwice.startOf 4) ∧
    replacedTwice.startOf 2 = 0 ∧ (replacedTwice.replace 2 2 3).startOf (2 - 2 + 2 + 3) = 5 := by
  have hreach : Reachable 11 replacedTwice :=
    .replace 2 (.replace 1 (.replace 3 .identity (by decide) (by decide)) (by decide) (by decide))
      (by decide) (by decide)
  have hpieces : replacedTwice.pieces =
      [.replaced 1 0 4, .replaced 2 0 5, .copied 5 1, .replaced 1 6 10, .copied 10 1] := by decide
  have hcut : ¬ replacedTwice.IsCutThrough 2 4 := by
    rintro ⟨front, k, first, last, back, hcons, hfront, -, hlt⟩
    rw [hpieces] at hcons
    -- the only text put in that begins in front of the cut and reaches it ends there
    rcases front with _ | ⟨p, _ | ⟨q, front⟩⟩
    · cases hcons
      exact absurd hlt (by decide)
    · cases hcons
      exact absurd hlt (by decide)
    · obtain ⟨rfl, rfl, -⟩ : .replaced 1 0 4 = p ∧ .replaced 2 0 5 = q ∧ _ := by simpa using hcons
      simp only [totalLength, Piece.length] at hfront
      omega
  obtain ⟨hstarts, hstops, hbehind, hkept, hrest⟩ :=
    replace_local hreach (Nat.le_refl 2) (by decide : 2 ≤ replacedTwice.size) 3
  exact ⟨hreach, ⟨by decide, by decide⟩, ⟨by decide, hstarts 1 (by decide)⟩,
    ⟨by decide, hstops 2 (by decide)⟩, ⟨by decide, hbehind 4 (by decide) (by decide)⟩,
    ⟨hcut, hkept 4 (by decide) (by decide) hcut⟩,
    (hrest [.replaced 1 0 4] 2 0 5 _ 2 hpieces (by decide) (by decide) (by decide)).2⟩

/-- **What is left of a text put in need not keep its beginning.** Four bytes that stand for the one
byte of the source begin where it begins; once the first of them has been replaced, the others begin
where it ends. -/
theorem replace_not_local :
    Reachable 1 ((identity 1).replace 0 1 4) ∧ 0 ≤ 1 ∧ 1 ≤ ((identity 1).replace 0 1 4).size ∧
      ¬ (((identity 1).replace 0 1 4).replace 0 1 1).startOf (1 - 1 + 0 + 1) =
        ((identity 1).replace 0 1 4).startOf 1 :=
  ⟨.replace 4 .identity (by decide) (by decide), by decide, by decide, by decide⟩

end Provenance

end MarkupTransfer
