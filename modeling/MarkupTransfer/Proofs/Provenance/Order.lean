import MarkupTransfer.Proofs.Provenance.Positions
/-!
# The order of the pieces

However often a working text has been changed, its pieces stay in the order of the source, in the
following sense. Each of them begins before it ends. Where it ends is never behind the end of a
later one, and it is not behind the beginning of a later one either if one of the two was copied.
Replacements are what makes this weaker than one might think: a text put in for the middle of
another one stands for as much as the whole, so it begins where its neighbour does.

* `Provenance.IsOrdered`: the invariant, which `IsOrdered.replace` keeps.
* `IsOrdered.stopOf_mono`, `IsOrdered.startOf_le_stopOf`: what follows for the places of the source
  that are found for places of the working text.
* `placed_of_reachable`: after any replacements the positions of the pieces are in step with the
  working text.
-/

namespace MarkupTransfer

namespace Piece

/-- Whether a piece was copied from the source. -/
def isCopied : Piece → Bool
  | copied _ _ => true
  | replaced _ _ _ => false

/-- A piece stands in front of another one in the source, as far as replacements let it. -/
structure Precedes (p q : Piece) : Prop where
  stop_le_stop : p.stopAt p.length ≤ q.stopAt 0
  stop_le_start : p.isCopied = true → p.stopAt p.length ≤ q.startAt 0

/-! ## The parts of a piece -/

variable {p q : Piece}

theorem startAt_mono {j k : Nat} (h : j ≤ k) : p.startAt j ≤ p.startAt k := by
  cases p <;> simp only [startAt] <;> omega

theorem stopAt_mono {j k : Nat} (h : j ≤ k) : p.stopAt j ≤ p.stopAt k := by
  cases p <;> simp only [stopAt] <;> omega

theorem startAt_le_stopAt (hp : p.startAt 0 ≤ p.stopAt p.length) {j k : Nat} (h : j ≤ k) :
    p.startAt j ≤ p.stopAt k := by
  cases p <;> simp only [startAt, stopAt] at * <;> omega

theorem stopAt_eq_startAt (hp : p.isCopied = true) (k : Nat) : p.stopAt k = p.startAt k := by
  cases p with
  | copied s n => rfl
  | replaced n s t => cases hp

@[simp] theorem isCopied_head (n : Nat) : (p.head n).isCopied = p.isCopied := by cases p <;> rfl

@[simp] theorem isCopied_tail (n : Nat) : (p.tail n).isCopied = p.isCopied := by cases p <;> rfl

@[simp] theorem startAt_head (n k : Nat) : (p.head n).startAt k = p.startAt k := by
  cases p <;> rfl

@[simp] theorem stopAt_head (n k : Nat) : (p.head n).stopAt k = p.stopAt k := by cases p <;> rfl

@[simp] theorem stopAt_tail (n k : Nat) : (p.tail n).stopAt k = p.stopAt (n + k) := by
  cases p <;> simp [tail, stopAt, Nat.add_assoc]

theorem startAt_le_startAt_tail (hp : p.startAt 0 ≤ p.stopAt p.length) (n : Nat) :
    p.startAt n ≤ (p.tail n).startAt 0 := by
  cases p <;> simp only [startAt, stopAt, tail] at * <;> omega

theorem startAt_tail_le (hp : p.startAt 0 ≤ p.stopAt p.length) {n : Nat} (h : n ≤ p.length) :
    (p.tail n).startAt 0 ≤ p.stopAt p.length := by
  cases p <;> simp only [startAt, stopAt, tail, Piece.length] at * <;> omega

namespace Precedes

theorem head_left (h : p.Precedes q) {n : Nat} (hn : n ≤ p.length) : (p.head n).Precedes q where
  stop_le_stop := by
    rw [stopAt_head, length_head]
    exact Nat.le_trans (stopAt_mono hn) h.stop_le_stop
  stop_le_start hp := by
    rw [stopAt_head, length_head]
    exact Nat.le_trans (stopAt_mono hn) (h.stop_le_start (by simpa using hp))

theorem tail_left (h : p.Precedes q) {n : Nat} (hn : n ≤ p.length) : (p.tail n).Precedes q where
  stop_le_stop := by
    rw [stopAt_tail, length_tail, Nat.add_sub_cancel' hn]
    exact h.stop_le_stop
  stop_le_start hp := by
    rw [stopAt_tail, length_tail, Nat.add_sub_cancel' hn]
    exact h.stop_le_start (by simpa using hp)

theorem head_right (h : p.Precedes q) (n : Nat) : p.Precedes (q.head n) where
  stop_le_stop := by simpa using h.stop_le_stop
  stop_le_start hp := by simpa using h.stop_le_start hp

theorem tail_right (h : p.Precedes q) (hq : q.startAt 0 ≤ q.stopAt q.length) (n : Nat) :
    p.Precedes (q.tail n) where
  stop_le_stop := by
    rw [stopAt_tail]
    exact Nat.le_trans h.stop_le_stop (stopAt_mono (Nat.zero_le _))
  stop_le_start hp := Nat.le_trans (h.stop_le_start hp)
    (Nat.le_trans (startAt_mono (Nat.zero_le n)) (startAt_le_startAt_tail hq n))

end Precedes

theorem head_precedes_tail (hp : p.startAt 0 ≤ p.stopAt p.length) {m n : Nat} (h : m ≤ n) :
    (p.head m).Precedes (p.tail n) where
  stop_le_stop := by
    rw [stopAt_head, length_head, stopAt_tail]
    exact stopAt_mono h
  stop_le_start hc := by
    rw [stopAt_head, length_head, stopAt_eq_startAt (by simpa using hc)]
    exact Nat.le_trans (startAt_mono h) (startAt_le_startAt_tail hp n)

/-! ## Rows of pieces -/

/-- Pieces of a working text that are in order. None of them is empty. -/
structure AreOrdered (sourceSize : Nat) (ps : List Piece) : Prop where
  length_pos : ∀ p ∈ ps, 0 < p.length
  forward : ∀ p ∈ ps, p.startAt 0 ≤ p.stopAt p.length
  within : ∀ p ∈ ps, p.stopAt p.length ≤ sourceSize
  ascending : ps.Pairwise Precedes

variable {sourceSize : Nat} {ps : List Piece}

theorem areOrdered_nil : AreOrdered sourceSize [] := ⟨by simp, by simp, by simp, .nil⟩

theorem AreOrdered.of_cons (h : AreOrdered sourceSize (p :: ps)) :
    0 < p.length ∧ p.startAt 0 ≤ p.stopAt p.length ∧ p.stopAt p.length ≤ sourceSize ∧
      (∀ q ∈ ps, p.Precedes q) ∧ AreOrdered sourceSize ps := by
  obtain ⟨hp, hps⟩ := List.pairwise_cons.mp h.ascending
  exact ⟨h.length_pos p (by simp), h.forward p (by simp), h.within p (by simp), hp,
    fun q hq => h.length_pos q (by simp [hq]), fun q hq => h.forward q (by simp [hq]),
    fun q hq => h.within q (by simp [hq]), hps⟩

theorem AreOrdered.precedes_of_mem_dropFront (h : AreOrdered sourceSize ps)
    (hp : ∀ q ∈ ps, p.Precedes q) {n : Nat} : ∀ q ∈ dropFront n ps, p.Precedes q := by
  intro q hq
  obtain ⟨r, hr, rfl | ⟨k, -, -, rfl⟩⟩ := exists_of_mem_dropFront hq
  · exact hp q hr
  · exact (hp r hr).tail_right (h.forward r hr) k

theorem precedes_of_mem_takeFront (hp : ∀ q ∈ ps, p.Precedes q) {n : Nat} :
    ∀ q ∈ takeFront n ps, p.Precedes q := by
  intro q hq
  obtain ⟨r, hr, rfl | ⟨k, -, -, rfl⟩⟩ := exists_of_mem_takeFront hq
  · exact hp q hr
  · exact (hp r hr).head_right k

theorem AreOrdered.pairwise_dropFront (h : AreOrdered sourceSize ps) (n : Nat) :
    (dropFront n ps).Pairwise Precedes := by
  induction ps generalizing n with
  | nil => exact .nil
  | cons p ps ih =>
    obtain ⟨-, -, -, hp, hps⟩ := h.of_cons
    rw [dropFront]
    split
    · exact h.ascending
    · split
      · exact ih hps _
      · exact List.pairwise_cons.mpr ⟨fun q hq => (hp q hq).tail_left (by omega), hps.ascending⟩

/-- **What is left of a row on both sides of a range is in order.** -/
theorem AreOrdered.pairwise_append (h : AreOrdered sourceSize ps) {start stop : Nat}
    (hle : start ≤ stop) : (takeFront start ps ++ dropFront stop ps).Pairwise Precedes := by
  induction ps generalizing start stop with
  | nil => exact .nil
  | cons p ps ih =>
    obtain ⟨-, hforward, -, hp, hps⟩ := h.of_cons
    by_cases hstart : start = 0
    · rw [hstart, takeFront_zero]
      exact h.pairwise_dropFront stop
    rw [takeFront, if_neg hstart]
    by_cases hwhole : p.length ≤ start
    · rw [if_pos hwhole, dropFront, if_neg (by omega), if_pos (by omega), List.cons_append]
      refine List.pairwise_cons.mpr ⟨fun q hq => ?_, ih hps (by omega)⟩
      rcases List.mem_append.mp hq with hq | hq
      · exact precedes_of_mem_takeFront hp q hq
      · exact hps.precedes_of_mem_dropFront hp q hq
    rw [if_neg hwhole, List.singleton_append, dropFront, if_neg (by omega)]
    have hhead : ∀ q ∈ ps, (p.head start).Precedes q := fun q hq => (hp q hq).head_left (by omega)
    split
    · exact List.pairwise_cons.mpr
        ⟨hps.precedes_of_mem_dropFront hhead, hps.pairwise_dropFront _⟩
    · -- The range lies inside one piece, of which a part is left on either side.
      exact List.pairwise_cons.mpr
        ⟨List.forall_mem_cons.mpr ⟨head_precedes_tail hforward hle, hhead⟩,
          List.pairwise_cons.mpr ⟨fun q hq => (hp q hq).tail_left (by omega), hps.ascending⟩⟩

/-! ## Places of the source -/

theorem le_startIn {n : Nat} (h : ∀ q ∈ ps, n ≤ q.startAt 0) (hn : n ≤ sourceSize) (pos : Nat) :
    n ≤ startIn sourceSize ps pos := by
  induction ps generalizing pos with
  | nil => exact hn
  | cons p ps ih =>
    rw [startIn]
    split
    · exact Nat.le_trans (h p (by simp)) (startAt_mono (Nat.zero_le pos))
    · exact ih (fun q hq => h q (by simp [hq])) _

theorem le_stopIn {n : Nat} (h : ∀ q ∈ ps, n ≤ q.stopAt 0) (hn : n ≤ sourceSize) (pos : Nat) :
    n ≤ stopIn sourceSize ps pos := by
  induction ps generalizing pos with
  | nil => exact hn
  | cons p ps ih =>
    rw [stopIn]
    split
    · exact Nat.le_trans (h p (by simp)) (stopAt_mono (Nat.zero_le pos))
    · exact ih (fun q hq => h q (by simp [hq])) _

namespace AreOrdered

theorem startIn_le (h : AreOrdered sourceSize ps) (pos : Nat) :
    startIn sourceSize ps pos ≤ sourceSize := by
  induction ps generalizing pos with
  | nil => exact Nat.le_refl _
  | cons p ps ih =>
    obtain ⟨-, hforward, hwithin, -, hps⟩ := h.of_cons
    rw [startIn]
    split
    · next hpos => exact Nat.le_trans (startAt_le_stopAt hforward (Nat.le_of_lt hpos)) hwithin
    · exact ih hps _

theorem stopIn_le (h : AreOrdered sourceSize ps) (pos : Nat) :
    stopIn sourceSize ps pos ≤ sourceSize := by
  induction ps generalizing pos with
  | nil => exact Nat.le_refl _
  | cons p ps ih =>
    obtain ⟨-, -, hwithin, -, hps⟩ := h.of_cons
    rw [stopIn]
    split
    · next hpos => exact Nat.le_trans (stopAt_mono hpos) hwithin
    · exact ih hps _

/-- **A range that ends later ends later in the source.** -/
theorem stopIn_mono (h : AreOrdered sourceSize ps) {pos pos' : Nat} (hle : pos ≤ pos') :
    stopIn sourceSize ps pos ≤ stopIn sourceSize ps pos' := by
  induction ps generalizing pos pos' with
  | nil => exact Nat.le_refl _
  | cons p ps ih =>
    obtain ⟨-, -, hwithin, hp, hps⟩ := h.of_cons
    rw [stopIn, stopIn]
    by_cases hpos' : pos' ≤ p.length
    · rw [if_pos (by omega), if_pos hpos']
      exact stopAt_mono hle
    rw [if_neg hpos']
    split
    · next hpos =>
      exact le_stopIn (fun q hq => Nat.le_trans (stopAt_mono hpos) (hp q hq).stop_le_stop)
        (Nat.le_trans (stopAt_mono hpos) hwithin) _
    · exact ih hps (by omega)

/-- **A range begins in the source before it ends there.** -/
theorem startIn_le_stopIn (h : AreOrdered sourceSize ps) {pos pos' : Nat} (hlt : pos < pos')
    (hle : pos' ≤ totalLength ps) : startIn sourceSize ps pos ≤ stopIn sourceSize ps pos' := by
  induction ps generalizing pos pos' with
  | nil =>
    simp only [totalLength] at hle
    omega
  | cons p ps ih =>
    obtain ⟨-, hforward, hwithin, hp, hps⟩ := h.of_cons
    simp only [totalLength] at hle
    rw [startIn, stopIn]
    by_cases hpos' : pos' ≤ p.length
    · rw [if_pos (by omega), if_pos hpos']
      exact startAt_le_stopAt hforward (Nat.le_of_lt hlt)
    rw [if_neg hpos']
    split
    · next hpos =>
      have hstart := startAt_le_stopAt hforward (Nat.le_of_lt hpos)
      exact le_stopIn (fun q hq => Nat.le_trans hstart (hp q hq).stop_le_stop)
        (Nat.le_trans hstart hwithin) _
    · exact ih hps (by omega) (by omega)

/-! ## What a place tells about the pieces on its two sides -/

theorem stop_le_stopIn (h : AreOrdered sourceSize ps) {n : Nat} (hp : p ∈ takeFront n ps) :
    p.stopAt p.length ≤ stopIn sourceSize ps n := by
  induction ps generalizing n with
  | nil => simp [takeFront] at hp
  | cons q ps ih =>
    obtain ⟨-, -, hwithin, hq, hps⟩ := h.of_cons
    rw [takeFront] at hp
    rw [stopIn]
    split at hp
    · cases hp
    split at hp
    · next hle =>
      rcases List.mem_cons.mp hp with rfl | hp
      · split
        · exact stopAt_mono hle
        · exact le_stopIn (fun r hr => (hq r hr).stop_le_stop) hwithin _
      · have hn : ¬ n ≤ q.length := fun hn => by
          rw [Nat.sub_eq_zero_of_le hn, takeFront_zero] at hp
          cases hp
        rw [if_neg hn]
        exact ih hps hp
    · rw [List.mem_singleton.mp hp, if_pos (by omega), stopAt_head, length_head]

theorem stop_le_startIn (h : AreOrdered sourceSize ps) {n : Nat} (hp : p ∈ takeFront n ps)
    (hc : p.isCopied = true) : p.stopAt p.length ≤ startIn sourceSize ps n := by
  induction ps generalizing n with
  | nil => simp [takeFront] at hp
  | cons q ps ih =>
    obtain ⟨-, -, hwithin, hq, hps⟩ := h.of_cons
    rw [takeFront] at hp
    rw [startIn]
    split at hp
    · cases hp
    split at hp
    · rw [if_neg (by omega)]
      rcases List.mem_cons.mp hp with rfl | hp
      · exact le_startIn (fun r hr => (hq r hr).stop_le_start hc) hwithin _
      · exact ih hps hp
    · obtain rfl := List.mem_singleton.mp hp
      rw [if_pos (by omega), stopAt_head, length_head, stopAt_eq_startAt (by simpa using hc)]

theorem stopIn_le_stop (h : AreOrdered sourceSize ps) {n : Nat} (hn : 0 < n)
    (hle : n ≤ totalLength ps) (hp : p ∈ dropFront n ps) :
    stopIn sourceSize ps n ≤ p.stopAt 0 := by
  induction ps generalizing n with
  | nil => simp [dropFront] at hp
  | cons q ps ih =>
    obtain ⟨-, -, -, hq, hps⟩ := h.of_cons
    simp only [totalLength] at hle
    rw [dropFront, if_neg (by omega)] at hp
    rw [stopIn]
    split at hp
    · by_cases heq : n = q.length
      · rw [heq, Nat.sub_self, dropFront_zero] at hp
        rw [if_pos (by omega), heq]
        exact (hq p hp).stop_le_stop
      · rw [if_neg (by omega)]
        exact ih hps (by omega) (by omega) hp
    · rw [if_pos (by omega)]
      rcases List.mem_cons.mp hp with rfl | hp
      · simp
      · exact Nat.le_trans (stopAt_mono (by omega)) (hq p hp).stop_le_stop

theorem startIn_le_stop (h : AreOrdered sourceSize ps) {start stop : Nat} (hle : start ≤ stop)
    (hp : p ∈ dropFront stop ps) : startIn sourceSize ps start ≤ p.stopAt 0 := by
  induction ps generalizing start stop with
  | nil => simp [dropFront] at hp
  | cons q ps ih =>
    obtain ⟨hpos, hforward, -, hq, hps⟩ := h.of_cons
    rw [startIn]
    by_cases hstart : start < q.length
    · rw [if_pos hstart]
      have hbehind : ∀ r ∈ ps, q.startAt start ≤ r.stopAt 0 := fun r hr =>
        Nat.le_trans (startAt_le_stopAt hforward (Nat.le_of_lt hstart)) (hq r hr).stop_le_stop
      rw [dropFront] at hp
      split at hp
      · rcases List.mem_cons.mp hp with rfl | hp
        · exact startAt_le_stopAt hforward (by omega)
        · exact hbehind p hp
      split at hp
      · obtain ⟨r, hr, rfl | ⟨k, -, -, rfl⟩⟩ := exists_of_mem_dropFront hp
        · exact hbehind p hr
        · rw [stopAt_tail]
          exact Nat.le_trans (hbehind r hr) (stopAt_mono (Nat.zero_le _))
      · rcases List.mem_cons.mp hp with rfl | hp
        · rw [stopAt_tail]
          exact startAt_le_stopAt hforward hle
        · exact hbehind p hp
    · rw [if_neg hstart]
      rw [dropFront, if_neg (by omega), if_pos (by omega)] at hp
      exact ih hps (by omega) hp

end AreOrdered

end Piece

/-! ## Replacing a range -/

namespace Provenance

open Piece

/-- The pieces of a provenance are in order. -/
def IsOrdered (m : Provenance) : Prop := AreOrdered m.sourceSize m.pieces

theorem isOrdered_identity (n : Nat) : (identity n).IsOrdered := by
  by_cases hn : n = 0
  · simpa [IsOrdered, identity, hn] using areOrdered_nil
  · refine ⟨?_, ?_, ?_, ?_⟩ <;> simp [identity, hn, Piece.length, startAt, stopAt]
    omega

namespace IsOrdered

variable {m : Provenance}

theorem stopOf_le (h : m.IsOrdered) (pos : Nat) : m.stopOf pos ≤ m.sourceSize := by
  rw [stopOf]
  split
  · exact Nat.zero_le _
  · exact AreOrdered.stopIn_le h pos

theorem startOf_le (h : m.IsOrdered) (pos : Nat) : m.startOf pos ≤ m.sourceSize :=
  AreOrdered.startIn_le h pos

theorem stopOf_mono (h : m.IsOrdered) {pos pos' : Nat} (hle : pos ≤ pos') :
    m.stopOf pos ≤ m.stopOf pos' := by
  rw [stopOf, stopOf]
  split
  · exact Nat.zero_le _
  · rw [if_neg (by omega)]
    exact AreOrdered.stopIn_mono h hle

theorem startOf_le_stopOf (h : m.IsOrdered) {pos pos' : Nat} (hlt : pos < pos')
    (hle : pos' ≤ m.size) : m.startOf pos ≤ m.stopOf pos' := by
  rw [stopOf, if_neg (by omega)]
  exact AreOrdered.startIn_le_stopIn h hlt hle

theorem stopFrom_le (h : m.IsOrdered) (start stop : Nat) : m.stopFrom start stop ≤ m.sourceSize :=
  Nat.max_le.mpr ⟨h.stopOf_le stop, h.startOf_le start⟩

/-- What is in front of a replaced range precedes what is put in its place. -/
theorem precedes_replaced (h : m.IsOrdered) {start stop : Nat} (hle : start ≤ stop) (length : Nat)
    {p : Piece} (hp : p ∈ takeFront start m.pieces) :
    p.Precedes (.replaced length (m.startOf start) (m.stopFrom start stop)) where
  stop_le_stop := by
    have hstop : p.stopAt p.length ≤ m.stopOf start := by
      by_cases h0 : start = 0
      · rw [h0, takeFront_zero] at hp
        cases hp
      · rw [stopOf, if_neg h0]
        exact AreOrdered.stop_le_stopIn h hp
    exact Nat.le_trans (Nat.le_trans hstop (h.stopOf_mono hle)) (Nat.le_max_left _ _)
  stop_le_start hc := AreOrdered.stop_le_startIn h hp hc

/-- What is put in the place of a range precedes what is behind the range. -/
theorem replaced_precedes (h : m.IsOrdered) {start stop : Nat} (hle : start ≤ stop)
    (hstop : stop ≤ m.size) (length : Nat) {q : Piece} (hq : q ∈ dropFront stop m.pieces) :
    (Piece.replaced length (m.startOf start) (m.stopFrom start stop)).Precedes q where
  stop_le_stop := by
    refine Nat.max_le.mpr ⟨?_, AreOrdered.startIn_le_stop h hle hq⟩
    rw [stopOf]
    split
    · exact Nat.zero_le _
    · exact AreOrdered.stopIn_le_stop h (by omega) hstop hq
  stop_le_start hc := nomatch hc

/-- **Replacing a range keeps the pieces in order.** -/
theorem replace (h : m.IsOrdered) {start stop : Nat} (hle : start ≤ stop) (hstop : stop ≤ m.size)
    (length : Nat) : (m.replace start stop length).IsOrdered := by
  have hput : ∀ p ∈ (if length = 0 then [] else
      [Piece.replaced length (m.startOf start) (m.stopFrom start stop)]),
      p = .replaced length (m.startOf start) (m.stopFrom start stop) := by
    intro p hp
    split at hp
    · cases hp
    · exact List.mem_singleton.mp hp
  refine ⟨length_pos_of_mem_replace h.length_pos, ?_, ?_, ?_⟩
  · intro p hp
    simp only [Provenance.replace, List.mem_append] at hp
    rcases hp with (hp | hp) | hp
    · obtain ⟨q, hq, rfl | ⟨k, -, -, rfl⟩⟩ := exists_of_mem_takeFront hp
      · exact h.forward p hq
      · rw [startAt_head, stopAt_head, length_head]
        exact startAt_le_stopAt (h.forward q hq) (Nat.zero_le k)
    · rw [hput p hp]
      exact Nat.le_max_right _ _
    · obtain ⟨q, hq, rfl | ⟨k, -, hk, rfl⟩⟩ := exists_of_mem_dropFront hp
      · exact h.forward p hq
      · rw [stopAt_tail, length_tail, Nat.add_sub_cancel' (Nat.le_of_lt hk)]
        exact startAt_tail_le (h.forward q hq) (Nat.le_of_lt hk)
  · intro p hp
    simp only [Provenance.replace, List.mem_append] at hp
    rcases hp with (hp | hp) | hp
    · obtain ⟨q, hq, rfl | ⟨k, -, hk, rfl⟩⟩ := exists_of_mem_takeFront hp
      · exact h.within p hq
      · rw [stopAt_head, length_head]
        exact Nat.le_trans (stopAt_mono (Nat.le_of_lt hk)) (h.within q hq)
    · rw [hput p hp]
      exact h.stopFrom_le start stop
    · obtain ⟨q, hq, rfl | ⟨k, -, hk, rfl⟩⟩ := exists_of_mem_dropFront hp
      · exact h.within p hq
      · rw [stopAt_tail, length_tail, Nat.add_sub_cancel' (Nat.le_of_lt hk)]
        exact h.within q hq
  · obtain ⟨hfront, hback, hcross⟩ := List.pairwise_append.mp (AreOrdered.pairwise_append h hle)
    have hmid : (if length = 0 then [] else
        [Piece.replaced length (m.startOf start) (m.stopFrom start stop)]).Pairwise Precedes := by
      split
      · exact .nil
      · exact List.pairwise_singleton _ _
    refine List.pairwise_append.mpr ⟨List.pairwise_append.mpr ⟨hfront, hmid, ?_⟩, hback, ?_⟩
    · intro p hp q hq
      rw [hput q hq]
      exact h.precedes_replaced hle length hp
    · intro p hp q hq
      rcases List.mem_append.mp hp with hp | hp
      · exact hcross p hp q hq
      · rw [hput p hp]
        exact h.replaced_precedes hle hstop length hq

end IsOrdered

/-! ## Replacements one after another -/

/-- The provenances that replacements lead to, of texts whose source has `n` bytes. -/
inductive Reachable (n : Nat) : Provenance → Prop
  | identity : Reachable n (.identity n)
  | replace {m : Provenance} {start stop : Nat} (length : Nat) :
      Reachable n m → start ≤ stop → stop ≤ m.size → Reachable n (m.replace start stop length)

namespace Reachable

variable {n : Nat} {m : Provenance}

theorem sourceSize_eq (h : Reachable n m) : m.sourceSize = n := by
  induction h with
  | identity => rfl
  | replace length _ _ _ ih => exact ih

theorem isOrdered (h : Reachable n m) : m.IsOrdered := by
  induction h with
  | identity => exact isOrdered_identity n
  | replace length _ hle hstop ih => exact ih.replace hle hstop length

end Reachable

theorem mem_place {ps : List Piece} {start : Nat} {l : Link} (h : l ∈ place start ps) :
    ∃ p ∈ ps, ∃ k, l = p.link k := by
  induction ps generalizing start with
  | nil => cases h
  | cons p ps ih =>
    rcases List.mem_cons.mp h with rfl | h
    · exact ⟨p, by simp, start, rfl⟩
    · obtain ⟨q, hq, k, rfl⟩ := ih h
      exact ⟨q, by simp [hq], k, rfl⟩

/-- The source of a link lies within the source, and if the link was copied it is as long there as
in the working text. -/
theorem Reachable.source_link {n : Nat} {m : Provenance} (h : Reachable n m) {l : Link}
    (hl : l ∈ m.placed.links) :
    l.source.start ≤ l.source.stop ∧ l.source.stop ≤ n ∧
      (l.isCopied = true →
        l.source.stop - l.source.start = l.shown.stop - l.shown.start) := by
  obtain ⟨p, hp, k, rfl⟩ := mem_place hl
  have hforward := h.isOrdered.forward p hp
  have hwithin := h.isOrdered.within p hp
  rw [h.sourceSize_eq] at hwithin
  cases p <;> simp only [startAt, stopAt, Piece.length, link] at * <;>
    refine ⟨by omega, by omega, fun hc => ?_⟩
  · omega
  · cases hc

/-- **Positions never run out of step with the working text.** Whatever has been replaced: the links
take up the working text without a gap, and stand for ranges of the source that are as long if they
were copied; one more replacement has a result, and changes the size by just the difference; and the
places of the source found for places of the working text are places of the source, those of ends in
the same order, and those of beginnings in front of those of later ends. -/
theorem placed_of_reachable {n : Nat} {m : Provenance} (h : Reachable n m) :
    (identity n).placed = .identity n ∧
    PositionMap.IsTiled 0 m.placed.links m.placed.size ∧ m.placed.sourceSize = n ∧
    (∀ l ∈ m.placed.links, l.source.start ≤ l.source.stop ∧ l.source.stop ≤ n ∧
      (l.isCopied = true → l.source.stop - l.source.start = l.shown.stop - l.shown.start)) ∧
    (∀ start stop length, start ≤ stop → stop ≤ m.placed.size →
      m.placed.replace? start stop length = some (m.replace start stop length).placed ∧
      (m.replace start stop length).placed.size = m.placed.size - (stop - start) + length) ∧
    (∀ pos, m.placed.startOf? pos = some (m.startOf pos) ∧ m.startOf pos ≤ n ∧
      m.placed.stopOf? pos = some (m.stopOf pos) ∧ m.stopOf pos ≤ n) ∧
    (∀ pos pos', pos ≤ pos' → pos' ≤ m.placed.size → m.stopOf pos ≤ m.stopOf pos') ∧
    (∀ pos pos', pos < pos' → pos' ≤ m.placed.size → m.startOf pos ≤ m.stopOf pos') := by
  have hordered := h.isOrdered
  have hsource := h.sourceSize_eq
  refine ⟨placed_identity n, ?_, hsource, fun l hl => h.source_link hl, ?_, ?_, ?_, ?_⟩
  · have := isTiled_place hordered.length_pos 0
    rwa [Nat.zero_add] at this
  · intro start stop length hle hstop
    have hsize := size_replace m start stop length (Nat.le_trans hle hstop)
    refine ⟨replace?_placed hordered.length_pos hle hstop length, ?_⟩
    simp only [placed] at hstop ⊢
    omega
  · intro pos
    have hstart := hordered.startOf_le pos
    have hstop := hordered.stopOf_le pos
    rw [hsource] at hstart hstop
    exact ⟨startOf?_placed m pos, hstart, stopOf?_placed m pos, hstop⟩
  · exact fun pos pos' hle _ => hordered.stopOf_mono hle
  · exact fun pos pos' hlt hle => hordered.startOf_le_stopOf hlt hle

/-- Eleven bytes, some of them replaced, and some of what was put in replaced again. -/
def replacedTwice : Provenance :=
  (((identity 11).replace 0 4 3).replace 5 9 1).replace 1 4 2

theorem placed_of_reachable_replacedTwice :
    Reachable 11 replacedTwice ∧
      PositionMap.IsTiled 0 replacedTwice.placed.links replacedTwice.placed.size ∧
      (1 ≤ 3 ∧ 3 ≤ replacedTwice.placed.size) ∧
      replacedTwice.placed.replace? 1 3 0 = some (replacedTwice.replace 1 3 0).placed ∧
      replacedTwice.stopOf 1 ≤ replacedTwice.stopOf 3 ∧
      replacedTwice.startOf 1 ≤ replacedTwice.stopOf 3 := by
  have hreach : Reachable 11 replacedTwice :=
    .replace 2 (.replace 1 (.replace 3 .identity (by decide) (by decide)) (by decide) (by decide))
      (by decide) (by decide)
  have hsize : 1 ≤ 3 ∧ 3 ≤ replacedTwice.placed.size := by decide
  obtain ⟨-, htiled, -, -, hreplace, -, hmono, hlt⟩ := placed_of_reachable hreach
  exact ⟨hreach, htiled, hsize, (hreplace 1 3 0 hsize.1 hsize.2).1, hmono 1 3 hsize.1 hsize.2,
    hlt 1 3 (by decide) hsize.2⟩

end Provenance

end MarkupTransfer
