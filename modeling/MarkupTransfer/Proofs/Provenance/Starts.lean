import MarkupTransfer.Proofs.Provenance.Order
/-!
# Where ranges begin

A range that begins further right in the working text need not begin further right in the source. A
text put in for the middle of another one stands for as much as the whole of it, and what remains of
the other one in front still stands for the whole as well, so it overhangs its neighbour. If a later
replacement ends inside such a remainder, the rest of that stands for the end of the whole only and
begins behind its neighbour.

This is the one way in which the order of the beginnings can be lost.

* `startOf_replace_of_lt`, `startOf_replace_of_mem`, `startOf_replace_behind`: where ranges begin
  after a replacement.
* `Provenance.ascends_replace_iff`: the replacements that keep the beginnings in order.
* `startOf_mono_of_tidy`: without a replacement of the other kind they always are.
-/

namespace MarkupTransfer

namespace Piece

variable {p : Piece} {ps qs : List Piece} {sourceSize : Nat}

/-! ## Rows put together and cut -/

theorem dropFront_append (h : ∀ p ∈ ps, 0 < p.length) (n : Nat) :
    dropFront (totalLength ps + n) (ps ++ qs) = dropFront n qs := by
  induction ps with
  | nil => simp [totalLength]
  | cons p ps ih =>
    rw [totalLength, List.cons_append, Nat.add_assoc, dropFront_whole _ (h p (by simp)),
      ih fun q hq => h q (by simp [hq])]

theorem startIn_replaced_cons (n start stop : Nat) (ps : List Piece) (k : Nat) :
    startIn sourceSize (.replaced n start stop :: ps) k =
      if k < n then start else startIn sourceSize ps (k - n) := rfl

theorem startIn_copied_cons (s n : Nat) (ps : List Piece) (k : Nat) :
    startIn sourceSize (.copied s n :: ps) k =
      if k < n then s + k else startIn sourceSize ps (k - n) := rfl

theorem startIn_append_of_lt {pos : Nat} (h : pos < totalLength ps) :
    startIn sourceSize (ps ++ qs) pos = startIn sourceSize ps pos := by
  induction ps generalizing pos with
  | nil => simp [totalLength] at h
  | cons p ps ih =>
    simp only [totalLength] at h
    rw [List.cons_append, startIn, startIn]
    split
    · rfl
    · exact ih (by omega)

theorem startIn_append (ps qs : List Piece) (n : Nat) :
    startIn sourceSize (ps ++ qs) (totalLength ps + n) = startIn sourceSize qs n := by
  induction ps with
  | nil => simp [totalLength]
  | cons p ps ih =>
    rw [List.cons_append, startIn, totalLength, if_neg (by omega),
      show p.length + totalLength ps + n - p.length = totalLength ps + n by omega, ih]

theorem startIn_takeFront {n pos : Nat} (h : pos < n) (hn : n ≤ totalLength ps) :
    startIn sourceSize (takeFront n ps) pos = startIn sourceSize ps pos := by
  induction ps generalizing n pos with
  | nil =>
    simp only [totalLength] at hn
    omega
  | cons p ps ih =>
    simp only [totalLength] at hn
    rw [takeFront, if_neg (by omega)]
    split
    · rw [startIn, startIn]
      split
      · rfl
      · exact ih (by omega) (by omega)
    · rw [startIn, length_head, if_pos h, startAt_head, startIn, if_pos (by omega)]

/-- Ranges that begin behind a cut begin where they did, unless the cut went through a text put in.
The rest of that begins where it ends. -/
theorem startIn_dropFront (h : ∀ p ∈ ps, 0 < p.length) (n : Nat) :
    (∀ k, startIn sourceSize (dropFront n ps) k = startIn sourceSize ps (n + k)) ∨
      ∃ front length start stop back k, ps = front ++ .replaced length start stop :: back ∧
        0 < k ∧ k < length ∧ n = totalLength front + k ∧
        dropFront n ps = .replaced (length - k) stop stop :: back := by
  induction ps generalizing n with
  | nil => exact .inl fun k => rfl
  | cons p ps ih =>
    have hps : ∀ q ∈ ps, 0 < q.length := fun q hq => h q (by simp [hq])
    by_cases hn : n = 0
    · refine .inl fun k => ?_
      rw [hn, dropFront_zero, Nat.zero_add]
    rw [dropFront, if_neg hn]
    split
    · next hle =>
      rcases ih hps (n - p.length) with hsame | ⟨front, length, start, stop, back, k, rfl, hk, hlt,
        hsum, hdrop⟩
      · refine .inl fun k => ?_
        rw [hsame, startIn, if_neg (by omega), show n + k - p.length = n - p.length + k by omega]
      · refine .inr ⟨p :: front, length, start, stop, back, k, rfl, hk, hlt, ?_, hdrop⟩
        simp only [totalLength]
        omega
    · next hlt =>
      cases p with
      | copied s m =>
        simp only [Piece.length] at hlt
        refine .inl fun k => ?_
        rw [tail, startIn_copied_cons, startIn_copied_cons]
        by_cases hk : k < m - n
        · rw [if_pos hk, if_pos (by omega), Nat.add_assoc]
        · rw [if_neg hk, if_neg (by omega), show k - (m - n) = n + k - m by omega]
      | replaced m s t =>
        simp only [Piece.length] at hlt
        exact .inr ⟨[], m, s, t, ps, n, rfl, by omega, by omega, by simp [totalLength], rfl⟩

end Piece

namespace Provenance

open Piece

variable {m : Provenance} {start stop : Nat}

/-! ## After a replacement -/

theorem startOf_replace_of_lt (hstart : start ≤ m.size) (length : Nat) {pos : Nat}
    (h : pos < start) : (m.replace start stop length).startOf pos = m.startOf pos := by
  have hsize := size_takeFront start m.pieces hstart
  rw [startOf, replace, List.append_assoc, startIn_append_of_lt (by omega),
    startIn_takeFront h hstart]
  rfl

theorem startOf_replace_of_mem (hstart : start ≤ m.size) {length k : Nat} (h : k < length) :
    (m.replace start stop length).startOf (start + k) = m.startOf start := by
  have hput : startIn m.sourceSize (takeFront start m.pieces ++ _) _ = _ :=
    startIn_append (takeFront start m.pieces)
      (.replaced length (m.startOf start) (m.stopFrom start stop) :: dropFront stop m.pieces) k
  rw [size_takeFront start m.pieces hstart, startIn_replaced_cons, if_pos h] at hput
  simpa [startOf, replace, show length ≠ 0 by omega] using hput

theorem startOf_replace_behind (hstart : start ≤ m.size) (length k : Nat) :
    (m.replace start stop length).startOf (start + length + k) =
      startIn m.sourceSize (dropFront stop m.pieces) k := by
  rw [← totalLength_replaced hstart stop length]
  exact startIn_append _ _ k

/-! ## The replacements that keep the order -/

/-- Ranges that begin further right begin further right in the source. -/
def Ascends (m : Provenance) : Prop :=
  ∀ pos pos', pos ≤ pos' → pos' ≤ m.size → m.startOf pos ≤ m.startOf pos'

/-- A place lies inside a text put in that stands for more than what comes before the beginning of
the piece behind it. -/
def CutsOverhang (m : Provenance) (pos : Nat) : Prop :=
  ∃ front length start stop next back k,
    m.pieces = front ++ .replaced length start stop :: next :: back ∧
      0 < k ∧ k < length ∧ pos = totalLength front + k ∧ next.startAt 0 < stop

theorem ascends_identity (n : Nat) : (identity n).Ascends := by
  have hplace : ∀ pos ≤ n, (identity n).startOf pos = pos := by
    intro pos hpos
    by_cases hn : n = 0
    · simp [startOf, identity, hn, startIn, show pos = 0 by omega]
    · by_cases hlt : pos < n
      · simp [startOf, identity, hn, startIn, Piece.length, startAt, hlt]
      · simp [startOf, identity, hn, startIn, Piece.length, show pos = n by omega]
  intro pos pos' hle hsize
  rw [size_identity] at hsize
  rw [hplace pos (by omega), hplace pos' hsize]
  exact hle

/-- Behind an overhang nothing begins in front of what it stands for, if the next piece does not and
the beginnings are in order. -/
theorem le_startIn_of_not_cutsOverhang (h : m.IsOrdered) (hasc : m.Ascends)
    {front back : List Piece} {length first last k : Nat}
    (hpieces : m.pieces = front ++ .replaced length first last :: back) (hk : 0 < k)
    (hlt : k < length) (hcut : ¬ m.CutsOverhang (totalLength front + k)) {n : Nat}
    (hn : n ≤ totalLength back) : last ≤ startIn m.sourceSize back n := by
  cases back with
  | nil =>
    have := h.within (.replaced length first last) (by simp [hpieces])
    exact this
  | cons next back =>
    have hnext : last ≤ next.startAt 0 := Nat.not_lt.mp fun hlast =>
      hcut ⟨front, length, first, last, next, back, k, hpieces, hk, hlt, rfl, hlast⟩
    have hpos := h.length_pos next (by simp [hpieces])
    have hplace : ∀ j, m.startOf (totalLength (front ++ [.replaced length first last]) + j) =
        startIn m.sourceSize (next :: back) j := by
      intro j
      rw [startOf, hpieces, List.append_cons, startIn_append]
    have hsize : m.size = totalLength (front ++ [.replaced length first last]) +
        totalLength (next :: back) := by
      rw [size, hpieces, List.append_cons, totalLength_append]
    have hmono := hasc (totalLength (front ++ [.replaced length first last]) + 0)
      (totalLength (front ++ [.replaced length first last]) + n) (by omega) (by omega)
    rw [hplace, hplace, startIn, if_pos hpos] at hmono
    exact Nat.le_trans hnext hmono

/-- Where the beginnings are in order, those behind a place stay in order when the row is cut there,
unless the cut goes through an overhang. -/
theorem startIn_dropFront_mono (h : m.IsOrdered) (hasc : m.Ascends)
    (hcut : ¬ m.CutsOverhang stop) {k k' : Nat} (hle : k ≤ k') (hk' : stop + k' ≤ m.size) :
    startIn m.sourceSize (dropFront stop m.pieces) k ≤
      startIn m.sourceSize (dropFront stop m.pieces) k' := by
  rcases startIn_dropFront h.length_pos stop with hsame |
    ⟨front, length, first, last, back, j, hpieces, hj, hlt, rfl, hdrop⟩
  · rw [hsame, hsame]
    exact hasc _ _ (by omega) hk'
  have hsize : m.size = totalLength front + (length + totalLength back) := by
    rw [size, hpieces, totalLength_append]
    rfl
  have hplace : ∀ i, m.startOf (totalLength front + (length + i)) =
      startIn m.sourceSize back i := by
    intro i
    rw [startOf, hpieces, startIn_append, startIn_replaced_cons, if_neg (by omega),
      Nat.add_sub_cancel_left]
  rw [hdrop, startIn_replaced_cons, startIn_replaced_cons]
  by_cases hk : k < length - j
  · rw [if_pos hk]
    split
    · exact Nat.le_refl _
    · exact le_startIn_of_not_cutsOverhang h hasc hpieces hj hlt hcut (by omega)
  · have hmono := hasc (totalLength front + (length + (k - (length - j))))
      (totalLength front + (length + (k' - (length - j)))) (by omega) (by omega)
    rw [hplace, hplace] at hmono
    rwa [if_neg hk, if_neg (by omega)]

theorem startOf_le_startIn_dropFront (h : m.IsOrdered) (hasc : m.Ascends) {pos k : Nat}
    (hle : pos ≤ stop + k) (hk : stop + k ≤ m.size) :
    m.startOf pos ≤ startIn m.sourceSize (dropFront stop m.pieces) k := by
  have hmono := hasc pos (stop + k) hle hk
  rcases startIn_dropFront h.length_pos stop with hsame |
    ⟨front, length, first, last, back, j, hpieces, hj, hlt, rfl, hdrop⟩
  · rw [hsame]
    exact hmono
  have hforward := h.forward (.replaced length first last) (by simp [hpieces])
  refine Nat.le_trans hmono ?_
  rw [hdrop, startOf, hpieces, Nat.add_assoc, startIn_append, startIn_replaced_cons,
    startIn_replaced_cons]
  by_cases hk : k < length - j
  · rw [if_pos hk, if_pos (by omega)]
    exact hforward
  · rw [if_neg hk, if_neg (by omega), show j + k - length = k - (length - j) by omega]

/-- **A replacement keeps the beginnings in order just if it does not end inside an overhang.** -/
theorem ascends_replace_iff (h : m.IsOrdered) (hasc : m.Ascends) (hle : start ≤ stop)
    (hstop : stop ≤ m.size) (length : Nat) :
    (m.replace start stop length).Ascends ↔ ¬ m.CutsOverhang stop := by
  have hstart := Nat.le_trans hle hstop
  have hsize := size_replace m start stop length hstart
  constructor
  · rintro hnew ⟨front, n, first, last, next, back, k, hpieces, hk, hlt, rfl, hlast⟩
    have hcovers := h.length_pos
    rw [hpieces] at hcovers
    have hdrop : dropFront (totalLength front + k) m.pieces =
        .replaced (n - k) last last :: next :: back := by
      rw [hpieces, dropFront_append fun p hp => hcovers p (by simp [hp]),
        dropFront_inside _ hk (by simpa [Piece.length] using hlt)]
      rfl
    have hnext : 0 < next.length := hcovers next (by simp)
    have htotal : m.size = totalLength front + (n + (next.length + totalLength back)) := by
      rw [size, hpieces, totalLength_append]
      rfl
    have hmono := hnew (start + length + 0) (start + length + (n - k)) (by omega) (by omega)
    rw [startOf_replace_behind hstart, startOf_replace_behind hstart, hdrop,
      startIn_replaced_cons, startIn_replaced_cons, if_pos (by omega), if_neg (by omega),
      Nat.sub_self, startIn, if_pos hnext] at hmono
    exact absurd hlast (Nat.not_lt.mpr hmono)
  · intro hcut pos pos' hpos hpos'
    rw [hsize] at hpos'
    -- Both places may lie in front of what was put in, inside it, or behind it.
    have hbehind : ∀ i, start + length ≤ i → ∃ k, i = start + length + k :=
      fun i hi => ⟨i - (start + length), by omega⟩
    by_cases hfront' : pos' < start
    · rw [startOf_replace_of_lt hstart length (by omega),
        startOf_replace_of_lt hstart length hfront']
      exact hasc pos pos' hpos (by omega)
    by_cases hin' : pos' < start + length
    · obtain ⟨k', rfl⟩ : ∃ k', pos' = start + k' := ⟨pos' - start, by omega⟩
      rw [startOf_replace_of_mem hstart (show k' < length by omega)]
      by_cases hfront : pos < start
      · rw [startOf_replace_of_lt hstart length hfront]
        exact hasc pos start (by omega) hstart
      · obtain ⟨k, rfl⟩ : ∃ k, pos = start + k := ⟨pos - start, by omega⟩
        rw [startOf_replace_of_mem hstart (show k < length by omega)]
    obtain ⟨k', rfl⟩ := hbehind pos' (by omega)
    rw [startOf_replace_behind hstart]
    by_cases hfront : pos < start
    · rw [startOf_replace_of_lt hstart length hfront]
      exact startOf_le_startIn_dropFront h hasc (by omega) (by omega)
    by_cases hin : pos < start + length
    · obtain ⟨k, rfl⟩ : ∃ k, pos = start + k := ⟨pos - start, by omega⟩
      rw [startOf_replace_of_mem hstart (show k < length by omega)]
      exact startOf_le_startIn_dropFront h hasc (by omega) (by omega)
    obtain ⟨k, rfl⟩ := hbehind pos (by omega)
    rw [startOf_replace_behind hstart]
    exact startIn_dropFront_mono h hasc hcut (by omega) (by omega)

/-! ## Replacements one after another -/

/-- The provenances that replacements lead to if none of them ends inside an overhang. -/
inductive Tidy (n : Nat) : Provenance → Prop
  | identity : Tidy n (.identity n)
  | replace {m : Provenance} {start stop : Nat} (length : Nat) :
      Tidy n m → start ≤ stop → stop ≤ m.size → ¬ m.CutsOverhang stop →
        Tidy n (m.replace start stop length)

namespace Tidy

variable {n : Nat} {m : Provenance}

theorem reachable (h : Tidy n m) : Reachable n m := by
  induction h with
  | identity => exact .identity
  | replace length _ hle hstop _ ih => exact .replace length ih hle hstop

theorem ascends (h : Tidy n m) : m.Ascends := by
  induction h with
  | identity => exact ascends_identity n
  | replace length h hle hstop hcut ih =>
    exact (ascends_replace_iff h.reachable.isOrdered ih hle hstop length).mpr hcut

end Tidy

/-- **Ranges that begin further right begin further right in the source**, as long as no replacement
ends inside an overhang; and the first that does makes an end of it. -/
theorem startOf_mono_of_tidy {n : Nat} {m : Provenance} (h : Tidy n m) :
    (∀ pos pos', pos ≤ pos' → pos' ≤ m.size → m.startOf pos ≤ m.startOf pos') ∧
    ∀ start stop length, start ≤ stop → stop ≤ m.size → m.CutsOverhang stop →
      ∃ pos pos', pos ≤ pos' ∧ pos' ≤ (m.replace start stop length).size ∧
        (m.replace start stop length).startOf pos' < (m.replace start stop length).startOf pos := by
  refine ⟨h.ascends, fun start stop length hle hstop hcut => ?_⟩
  have hnot := mt (ascends_replace_iff h.reachable.isOrdered h.ascends hle hstop length).mp
    (not_not.mpr hcut)
  simp only [Ascends, not_forall, Nat.not_le] at hnot
  obtain ⟨pos, pos', hpos, hpos', hlt⟩ := hnot
  exact ⟨pos, pos', hpos, hpos', hlt⟩

/-- A single byte, replaced by four of which the third is replaced again. -/
def overhanging : Provenance := ((identity 1).replace 0 1 4).replace 2 3 1

theorem startOf_mono_of_tidy_overhanging :
    Tidy 1 overhanging ∧ overhanging.startOf 1 ≤ overhanging.startOf 3 ∧
      0 ≤ 1 ∧ 1 ≤ overhanging.size ∧ overhanging.CutsOverhang 1 ∧
      ∃ pos pos', pos ≤ pos' ∧ pos' ≤ (overhanging.replace 0 1 1).size ∧
        (overhanging.replace 0 1 1).startOf pos' < (overhanging.replace 0 1 1).startOf pos := by
  have hwhole : ∀ {m : Provenance} {pos : Nat}, m.pieces.length ≤ 1 → ¬ m.CutsOverhang pos := by
    rintro m pos hm ⟨front, n, first, last, next, back, k, hpieces, -⟩
    rw [hpieces, List.length_append, List.length_cons, List.length_cons] at hm
    omega
  have htidy : Tidy 1 overhanging :=
    .replace 1 (.replace 4 .identity (by decide) (by decide) (hwhole (by decide))) (by decide)
      (by decide) (hwhole (by decide))
  have hcut : overhanging.CutsOverhang 1 :=
    ⟨[], 2, 0, 1, .replaced 1 0 1, [.replaced 1 1 1], 1, by decide, by decide, by decide, rfl,
      by decide⟩
  exact ⟨htidy, (startOf_mono_of_tidy htidy).1 1 3 (by decide) (by decide), by decide, by decide,
    hcut, (startOf_mono_of_tidy htidy).2 0 1 1 (by decide) (by decide) hcut⟩

/-- **The order of beginnings can be lost.** The remainder in front of the third byte is cut: its
second byte begins behind the third one in the source. -/
theorem startOf_not_mono :
    Reachable 1 (overhanging.replace 0 1 1) ∧ 1 ≤ 2 ∧ 2 ≤ (overhanging.replace 0 1 1).size ∧
      ¬ (overhanging.replace 0 1 1).startOf 1 ≤ (overhanging.replace 0 1 1).startOf 2 := by
  have hreach : Reachable 1 overhanging :=
    .replace 1 (.replace 4 .identity (by decide) (by decide)) (by decide) (by decide)
  exact ⟨.replace 1 hreach (by decide) (by decide), by decide, by decide, by decide⟩

end Provenance

end MarkupTransfer
