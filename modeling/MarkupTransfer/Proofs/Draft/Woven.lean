import Mathlib.Data.List.Chain
import MarkupTransfer.Proofs.Provenance.Order
import MarkupTransfer.Proofs.Text.Slices
/-!
# Pieces and the text they make up

A working text is woven of its pieces: a copied piece shows a stretch of the source character for
character, a replaced one shows whatever was put in, and stands for a range of the source that
begins and ends at the edges of characters. Edits may reach into texts put in before, so pieces are
cut anywhere between two characters.

* `Woven.cut`: pieces are cut where the text is.
* `Woven.isBoundary_startIn`, `Woven.isBoundary_stopIn`: a place between two characters of the
  working text is found between two characters of the source.
* `Woven.slice_eq`: characters that were all copied are found where they were copied from, since
  copied pieces never touch.
-/

namespace MarkupTransfer

open Text (size isBoundary slice)

namespace Piece

/-- What a piece shows, and that it keeps to the edges of characters in the source. -/
inductive Shows (source : Text) : Piece → Text → Prop
  | copied {front t back : Text} :
      source = front ++ t ++ back → Shows source (.copied (size front) (size t)) t
  | replaced {t : Text} {start stop : Nat} :
      source.isBoundary start = true → source.isBoundary stop = true →
        Shows source (.replaced (size t) start stop) t

namespace Shows

variable {source a b t : Text} {p : Piece}

theorem length_eq (h : p.Shows source t) : p.length = size t := by cases h <;> rfl

theorem head (h : p.Shows source (a ++ b)) : (p.head (size a)).Shows source a := by
  cases h with
  | copied hsource => exact .copied (by simpa using hsource)
  | replaced hstart hstop => exact .replaced hstart hstop

theorem tail (h : p.Shows source (a ++ b)) : (p.tail (size a)).Shows source b := by
  cases h with
  | @copied front _ back hsource =>
    have hsource : source = (front ++ a) ++ b ++ back := by simpa using hsource
    have := Shows.copied hsource
    simpa [Piece.tail] using this
  | replaced hstart hstop =>
    have : Shows source (.replaced (size b) _ _) b := .replaced hstop hstop
    simpa [Piece.tail] using this

theorem isBoundary_startAt (h : p.Shows source (a ++ b)) :
    source.isBoundary (p.startAt (size a)) = true := by
  cases h with
  | @copied front _ back hsource =>
    rw [startAt, ← Text.size_append]
    exact Text.isBoundary_size_of_append _ (b ++ back) (by simpa using hsource)
  | replaced hstart hstop => exact hstart

theorem isBoundary_stopAt (h : p.Shows source (a ++ b)) :
    source.isBoundary (p.stopAt (size a)) = true := by
  cases h with
  | @copied front _ back hsource =>
    rw [stopAt, ← Text.size_append]
    exact Text.isBoundary_size_of_append _ (b ++ back) (by simpa using hsource)
  | replaced hstart hstop => exact hstop

/-- Characters of a copied piece are found where they were copied from. -/
theorem slice_eq {m : Text} (h : p.Shows source (a ++ m ++ b)) (hp : p.isCopied = true) :
    source.slice (p.startAt (size a)) (p.stopAt (size a + size m)) = m := by
  cases h with
  | @copied front _ back hsource =>
    rw [startAt, stopAt, ← Nat.add_assoc, ← Text.size_append,
      show source = front ++ a ++ m ++ (b ++ back) by simpa using hsource]
    exact Text.slice_size _ _ _
  | replaced hstart hstop => cases hp

end Shows

/-! ## Which bytes were copied -/

/-- Whether a byte of a row of pieces was copied from the source. -/
def isCopiedIn : List Piece → Nat → Bool
  | [], _ => false
  | p :: ps, pos => if pos < p.length then p.isCopied else isCopiedIn ps (pos - p.length)

theorem isCopiedIn_cons_of_lt {p : Piece} {k : Nat} (h : k < p.length) (ps : List Piece) :
    isCopiedIn (p :: ps) k = p.isCopied := if_pos h

theorem isCopiedIn_cons_add (p : Piece) (ps : List Piece) (k : Nat) :
    isCopiedIn (p :: ps) (p.length + k) = isCopiedIn ps k := by
  rw [isCopiedIn, if_neg (by omega), Nat.add_sub_cancel_left]

theorem isCopiedIn_append (ps qs : List Piece) (k : Nat) :
    isCopiedIn (ps ++ qs) (totalLength ps + k) = isCopiedIn qs k := by
  induction ps with
  | nil => simp [totalLength]
  | cons p ps ih =>
    rw [List.cons_append, totalLength, Nat.add_assoc, isCopiedIn_cons_add, ih]

theorem isCopiedIn_append_of_lt {ps : List Piece} {k : Nat} (h : k < totalLength ps)
    (qs : List Piece) : isCopiedIn (ps ++ qs) k = isCopiedIn ps k := by
  induction ps generalizing k with
  | nil => simp [totalLength] at h
  | cons p ps ih =>
    rw [totalLength] at h
    rw [List.cons_append, isCopiedIn, isCopiedIn]
    split
    · rfl
    · exact ih (by omega)

theorem isCopiedIn_takeFront {n k : Nat} (h : k < n) (ps : List Piece) :
    isCopiedIn (takeFront n ps) k = isCopiedIn ps k := by
  induction ps generalizing n k with
  | nil => rfl
  | cons p ps ih =>
    rw [takeFront, if_neg (by omega)]
    split
    · rw [isCopiedIn, isCopiedIn]
      split
      · rfl
      · exact ih (by omega)
    · rw [isCopiedIn_cons_of_lt (by rwa [length_head]), isCopiedIn_cons_of_lt (by omega),
        isCopied_head]

theorem isCopiedIn_dropFront (n k : Nat) (ps : List Piece) :
    isCopiedIn (dropFront n ps) k = isCopiedIn ps (n + k) := by
  induction ps generalizing n with
  | nil => rfl
  | cons p ps ih =>
    by_cases hn : n = 0
    · rw [hn, dropFront_zero, Nat.zero_add]
    rw [dropFront, if_neg hn, isCopiedIn]
    split
    · rw [ih, if_neg (by omega), show n + k - p.length = n - p.length + k by omega]
    · rw [isCopiedIn, length_tail, isCopied_tail]
      by_cases hk : k < p.length - n
      · rw [if_pos hk, if_pos (by omega)]
      · rw [if_neg hk, if_neg (by omega), show k - (p.length - n) = n + k - p.length by omega]

theorem takeFront_append {ps qs : List Piece} (h : ∀ p ∈ ps, 0 < p.length) :
    takeFront (totalLength ps) (ps ++ qs) = ps := by
  induction ps with
  | nil => exact takeFront_zero qs
  | cons p ps ih =>
    rw [List.cons_append, totalLength, takeFront_whole _ (h p (by simp)),
      ih fun q hq => h q (by simp [hq])]

/-! ## Copied pieces never touch -/

/-- No two copied pieces touch. -/
def AreApart (ps : List Piece) : Prop :=
  ps.IsChain fun p q => p.isCopied = true → q.isCopied = false

theorem isCopied_of_head?_takeFront {n : Nat} {ps : List Piece} {q : Piece}
    (h : q ∈ (takeFront n ps).head?) : ∃ r ∈ ps.head?, q.isCopied = r.isCopied := by
  cases ps with
  | nil => simp [takeFront] at h
  | cons p ps =>
    rw [takeFront] at h
    split at h
    · simp at h
    · split at h
      · exact ⟨p, rfl, by rw [Option.some.inj h]⟩
      · exact ⟨p, rfl, by rw [← Option.some.inj h, isCopied_head]⟩

theorem AreApart.takeFront {ps : List Piece} (h : AreApart ps) (n : Nat) :
    AreApart (takeFront n ps) := by
  induction ps generalizing n with
  | nil => exact h
  | cons p ps ih =>
    obtain ⟨hp, hps⟩ := List.isChain_cons.mp h
    rw [Piece.takeFront]
    split
    · exact .nil
    · split
      · refine List.isChain_cons.mpr ⟨fun q hq hc => ?_, ih hps _⟩
        obtain ⟨r, hr, hqr⟩ := isCopied_of_head?_takeFront hq
        rw [hqr]
        exact hp r hr hc
      · exact .singleton _

theorem AreApart.dropFront {ps : List Piece} (h : AreApart ps) (n : Nat) :
    AreApart (dropFront n ps) := by
  induction ps generalizing n with
  | nil => exact h
  | cons p ps ih =>
    obtain ⟨hp, hps⟩ := List.isChain_cons.mp h
    rw [Piece.dropFront]
    split
    · exact h
    · split
      · exact ih hps _
      · exact List.isChain_cons.mpr ⟨fun q hq hc => hp q hq (by simpa using hc), hps⟩

/-! ## Rows of pieces -/

/-- A row of pieces makes up a text. -/
inductive Woven (source : Text) : List Piece → Text → Prop
  | nil : Woven source [] []
  | cons {p : Piece} {t rest : Text} {ps : List Piece} :
      t ≠ [] → p.Shows source t → Woven source ps rest → Woven source (p :: ps) (t ++ rest)

namespace Woven

variable {source t a b : Text} {ps : List Piece}

theorem eq_nil (h : Woven source ps []) : ps = [] := by
  generalize ht : ([] : Text) = t at h
  cases h with
  | nil => rfl
  | cons hne _ _ => exact absurd (List.append_eq_nil_iff.mp ht.symm).1 hne

theorem totalLength_eq (h : Woven source ps t) : totalLength ps = size t := by
  induction h with
  | nil => rfl
  | cons _ hp _ ih => rw [totalLength, hp.length_eq, ih, Text.size_append]

theorem append {qs : List Piece} {u : Text} (h : Woven source ps t) (h' : Woven source qs u) :
    Woven source (ps ++ qs) (t ++ u) := by
  induction h with
  | nil => exact h'
  | cons hne hp _ ih =>
    rw [List.append_assoc]
    exact cons hne hp ih

/-- **Pieces are cut where the text is.** -/
theorem cut (h : Woven source ps (a ++ b)) :
    Woven source (takeFront (size a) ps) a ∧ Woven source (dropFront (size a) ps) b := by
  generalize ht : a ++ b = t at h
  induction h generalizing a with
  | nil =>
    obtain ⟨rfl, rfl⟩ := List.append_eq_nil_iff.mp ht
    exact ⟨nil, nil⟩
  | @cons p t rest ps hne hp hrest ih =>
    have hlength := hp.length_eq
    have hpos := Nat.pos_of_ne_zero (mt Text.size_eq_zero.mp hne)
    by_cases hle : size t ≤ size a
    · obtain ⟨a, rfl, rfl⟩ := Text.exists_eq_append_of_size_le ht.symm hle
      obtain ⟨hfront, hback⟩ := ih rfl
      rw [Text.size_append, ← hlength, takeFront_whole ps (by omega), dropFront_whole ps (by omega)]
      exact ⟨cons hne hp hfront, hback⟩
    obtain ⟨b, rfl, rfl⟩ := Text.exists_eq_append_of_size_le ht (by omega)
    by_cases ha : a = []
    · subst ha
      rw [Text.size_nil, takeFront_zero, dropFront_zero]
      exact ⟨nil, cons hne hp hrest⟩
    · -- The cut is inside the piece.
      have ha' := Nat.pos_of_ne_zero (mt Text.size_eq_zero.mp ha)
      have hb : b ≠ [] := fun hb => hle (by simp [hb])
      rw [takeFront_inside ps ha' (by omega), dropFront_inside ps ha' (by omega)]
      exact ⟨by simpa using cons ha hp.head nil, cons hb hp.tail hrest⟩

/-- **A range that begins between two characters begins between two characters of the source.** -/
theorem isBoundary_startIn (h : Woven source ps (a ++ b)) :
    source.isBoundary (startIn (size source) ps (size a)) = true := by
  generalize ht : a ++ b = t at h
  induction h generalizing a with
  | nil => exact Text.isBoundary_size_of_append source [] (by simp)
  | @cons p t rest ps hne hp hrest ih =>
    rw [startIn, hp.length_eq]
    split
    · next hlt =>
      obtain ⟨b, rfl, rfl⟩ := Text.exists_eq_append_of_size_le ht (by omega)
      exact hp.isBoundary_startAt
    · next hlt =>
      obtain ⟨a, rfl, rfl⟩ := Text.exists_eq_append_of_size_le ht.symm (by omega)
      rw [Text.size_append, Nat.add_sub_cancel_left]
      exact ih rfl

/-- **A range that ends between two characters ends between two characters of the source.** -/
theorem isBoundary_stopIn (h : Woven source ps (a ++ b)) :
    source.isBoundary (stopIn (size source) ps (size a)) = true := by
  generalize ht : a ++ b = t at h
  induction h generalizing a with
  | nil => exact Text.isBoundary_size_of_append source [] (by simp)
  | @cons p t rest ps hne hp hrest ih =>
    rw [stopIn, hp.length_eq]
    split
    · next hle =>
      obtain ⟨b, rfl, rfl⟩ := Text.exists_eq_append_of_size_le ht hle
      exact hp.isBoundary_stopAt
    · next hlt =>
      obtain ⟨a, rfl, rfl⟩ := Text.exists_eq_append_of_size_le ht.symm (by omega)
      rw [Text.size_append, Nat.add_sub_cancel_left]
      exact ih rfl

/-- What follows a piece begins with a byte of the next one. -/
theorem isCopiedIn_zero (h : Woven source ps t) (ht : t ≠ []) :
    ∃ q ∈ ps.head?, isCopiedIn ps 0 = q.isCopied := by
  cases h with
  | nil => exact absurd rfl ht
  | @cons p t rest ps hne hp hrest =>
    have hpos := Nat.pos_of_ne_zero (mt Text.size_eq_zero.mp hne)
    exact ⟨p, rfl, isCopiedIn_cons_of_lt (by rwa [hp.length_eq]) ps⟩

/-- **Characters that were all copied are found where they were copied from.** -/
theorem slice_eq {m : Text} (h : Woven source ps (a ++ m ++ b)) (hm : m ≠ [])
    (hapart : AreApart ps)
    (hc : ∀ k, size a ≤ k → k < size a + size m → isCopiedIn ps k = true) :
    source.slice (startIn (size source) ps (size a)) (stopIn (size source) ps (size a + size m)) =
      m := by
  have hpos := Nat.pos_of_ne_zero (mt Text.size_eq_zero.mp hm)
  generalize ht : a ++ m ++ b = t at h
  induction h generalizing a with
  | nil => simp [hm] at ht
  | @cons p t rest ps hne hp hrest ih =>
    obtain ⟨hnext, hps⟩ := List.isChain_cons.mp hapart
    have hlength := hp.length_eq
    rw [List.append_assoc] at ht
    rw [startIn, stopIn, hlength]
    by_cases hlt : size a < size t
    · obtain ⟨x, rfl, hx⟩ := Text.exists_eq_append_of_size_le ht (by omega)
      rw [Text.size_append] at hlength hlt ⊢
      have hcopied : p.isCopied = true := by
        have := hc (size a) (by omega) (by omega)
        rwa [isCopiedIn_cons_of_lt (by omega)] at this
      by_cases hle : size m ≤ size x
      · obtain ⟨y, rfl, -⟩ := Text.exists_eq_append_of_size_le hx hle
        rw [if_pos (by omega), if_pos (by omega)]
        exact Shows.slice_eq (by simpa using hp) hcopied
      · -- The next piece cannot have been copied as well.
        obtain ⟨y, rfl, rfl⟩ := Text.exists_eq_append_of_size_le hx.symm (by omega)
        have hy : y ≠ [] := fun hy => hle (by simp [hy])
        obtain ⟨q, hq, hzero⟩ := hrest.isCopiedIn_zero (by simp [hy])
        have hlast := hc (p.length + 0) (by omega) (by
          have := Nat.pos_of_ne_zero (mt Text.size_eq_zero.mp hy)
          rw [Text.size_append]
          omega)
        rw [isCopiedIn_cons_add, hzero, hnext q hq hcopied] at hlast
        cases hlast
    · obtain ⟨y, rfl, hy⟩ := Text.exists_eq_append_of_size_le ht.symm (by omega)
      rw [Text.size_append] at hlt hc ⊢
      rw [if_neg hlt, if_neg (by omega), Nat.add_assoc, Nat.add_sub_cancel_left,
        Nat.add_sub_cancel_left]
      refine ih hps (fun k hk hlt => ?_) (by rw [List.append_assoc]; exact hy.symm)
      have := hc (size t + k) (by omega) (by omega)
      rwa [← hlength, isCopiedIn_cons_add] at this

end Woven

end Piece

/-! ## Replacing a range -/

namespace Provenance

open Piece

/-- Whether a byte of the working text was copied from the source, and not put in. -/
def isCopiedAt (m : Provenance) (pos : Nat) : Bool := isCopiedIn m.pieces pos

variable {m : Provenance} {start : Nat}

/-- What a cut behind a replacement leaves in front of it. -/
theorem takeFront_replace (hm : ∀ p ∈ m.pieces, 0 < p.length) (hstart : start ≤ m.size)
    (stop length : Nat) :
    takeFront (start + length) (m.replace start stop length).pieces =
      takeFront start m.pieces ++ if length = 0 then [] else
        [.replaced length (m.startOf start) (m.stopFrom start stop)] := by
  have hpos : ∀ p ∈ (m.replace start stop length).pieces, 0 < p.length :=
    length_pos_of_mem_replace hm
  rw [replace] at hpos ⊢
  rw [← totalLength_replaced hstart stop length]
  exact takeFront_append fun p hp => hpos p (List.mem_append_left _ hp)

/-- **A replacement puts bytes in**, and leaves those in front of its range and behind it what they
were. -/
theorem isCopiedAt_replace (hstart : start ≤ m.size) (stop length : Nat) :
    (∀ k < start, (m.replace start stop length).isCopiedAt k = m.isCopiedAt k) ∧
      (∀ k < length, (m.replace start stop length).isCopiedAt (start + k) = false) ∧
      ∀ k, (m.replace start stop length).isCopiedAt (start + length + k) =
        m.isCopiedAt (stop + k) := by
  have hsize := size_takeFront start m.pieces hstart
  refine ⟨fun k hk => ?_, fun k hk => ?_, fun k => ?_⟩
  · rw [isCopiedAt, replace, List.append_assoc, isCopiedIn_append_of_lt (by omega),
      isCopiedIn_takeFront hk]
    rfl
  · have hput := isCopiedIn_append (takeFront start m.pieces)
      (.replaced length (m.startOf start) (m.stopFrom start stop) :: dropFront stop m.pieces) k
    rw [hsize, isCopiedIn_cons_of_lt hk] at hput
    rw [isCopiedAt, replace, if_neg (by omega), List.append_assoc]
    exact hput
  · have hput := isCopiedIn_append (takeFront start m.pieces ++ if length = 0 then [] else
      [.replaced length (m.startOf start) (m.stopFrom start stop)]) (dropFront stop m.pieces) k
    rwa [totalLength_replaced hstart, isCopiedIn_dropFront] at hput

/-- Copied pieces stay apart, except that nothing may be taken out from between two of them. -/
theorem areApart_replace (h : AreApart m.pieces) {stop length : Nat}
    (hside : length = 0 →
      (∀ p ∈ takeFront start m.pieces, p.isCopied = false) ∨ dropFront stop m.pieces = []) :
    AreApart (m.replace start stop length).pieces := by
  have hfront := h.takeFront start
  have hback := h.dropFront stop
  rw [replace]
  by_cases hl : length = 0
  · rw [if_pos hl, List.append_nil]
    refine List.isChain_append.mpr ⟨hfront, hback, fun p hp q hq hc => ?_⟩
    rcases hside hl with hput | hend
    · rw [hput p (List.mem_of_getLast? hp)] at hc
      cases hc
    · rw [hend] at hq
      cases hq
  · rw [if_neg hl]
    refine List.isChain_append.mpr ⟨List.isChain_append.mpr ⟨hfront, .singleton _, ?_⟩, hback, ?_⟩
    · rintro p - q hq -
      rw [← Option.some.inj hq]
      rfl
    · intro p hp q _ hc
      rw [List.getLast?_concat] at hp
      rw [← Option.some.inj hp] at hc
      cases hc

end Provenance

end MarkupTransfer
