/-!
# Where working text came from

A working text is a row of pieces. Copied pieces stand in the source character for character;
replaced ones stand for a range of the source as a whole, so a position inside one of them snaps
outward to the bounds of that range. Pieces are laid end to end, and a position in the working text
is found by walking over them.

Positions where a range begins are read from the piece on their right, positions where a range ends
from the piece on their left: a range that ends where something was deleted does not reach over the
deleted text.

* `size_takeFront`, `size_dropFront`: cutting a row of pieces divides its size.
* `Provenance.size_replace`: how a replacement changes the size of the working text.
-/

namespace MarkupTransfer

/-- A piece of a working text: characters copied from a place of the source, or characters put in
for a range of it. -/
inductive Piece
  | copied (source length : Nat)
  | replaced (length start stop : Nat)
  deriving DecidableEq, Repr

namespace Piece

/-- Number of bytes of a piece in the working text. -/
def length : Piece → Nat
  | copied _ n => n
  | replaced n _ _ => n

/-- Where in the source a range begins that begins some bytes into a piece. -/
def startAt (offset : Nat) : Piece → Nat
  | copied s _ => s + offset
  | replaced _ start _ => start

/-- Where in the source a range ends that ends some bytes into a piece. -/
def stopAt (offset : Nat) : Piece → Nat
  | copied s _ => s + offset
  | replaced _ _ stop => stop

/-- The first bytes of a piece. What is left of a replacement stands for its whole range. -/
def head (n : Nat) : Piece → Piece
  | copied s _ => copied s n
  | replaced _ start stop => replaced n start stop

/-- A piece without its first bytes. The rest of a replacement stands for the end of its range. -/
def tail (n : Nat) : Piece → Piece
  | copied s m => copied (s + n) (m - n)
  | replaced m _ stop => replaced (m - n) stop stop

@[simp] theorem length_head (n : Nat) (p : Piece) : (p.head n).length = n := by cases p <;> rfl

@[simp] theorem length_tail (n : Nat) (p : Piece) : (p.tail n).length = p.length - n := by
  cases p <;> rfl

/-! ## Rows of pieces -/

/-- Number of bytes of a row of pieces. -/
def totalLength : List Piece → Nat
  | [] => 0
  | p :: ps => p.length + totalLength ps

/-- The first bytes of a row of pieces. -/
def takeFront : Nat → List Piece → List Piece
  | _, [] => []
  | n, p :: ps =>
    if n = 0 then []
    else if p.length ≤ n then p :: takeFront (n - p.length) ps
    else [p.head n]

/-- A row of pieces without its first bytes. -/
def dropFront : Nat → List Piece → List Piece
  | _, [] => []
  | n, p :: ps =>
    if n = 0 then p :: ps
    else if p.length ≤ n then dropFront (n - p.length) ps
    else p.tail n :: ps

theorem takeFront_zero (ps : List Piece) : takeFront 0 ps = [] := by cases ps <;> rfl

theorem dropFront_zero (ps : List Piece) : dropFront 0 ps = ps := by cases ps <;> rfl

theorem takeFront_whole {p : Piece} (ps : List Piece) (h : 0 < p.length) (n : Nat) :
    takeFront (p.length + n) (p :: ps) = p :: takeFront n ps := by
  rw [takeFront, if_neg (by omega), if_pos (by omega), Nat.add_sub_cancel_left]

theorem dropFront_whole {p : Piece} (ps : List Piece) (h : 0 < p.length) (n : Nat) :
    dropFront (p.length + n) (p :: ps) = dropFront n ps := by
  rw [dropFront, if_neg (by omega), if_pos (by omega), Nat.add_sub_cancel_left]

theorem takeFront_inside {p : Piece} (ps : List Piece) {n : Nat} (h : 0 < n) (hn : n < p.length) :
    takeFront n (p :: ps) = [p.head n] := by
  rw [takeFront, if_neg (by omega), if_neg (by omega)]

theorem dropFront_inside {p : Piece} (ps : List Piece) {n : Nat} (h : 0 < n) (hn : n < p.length) :
    dropFront n (p :: ps) = p.tail n :: ps := by
  rw [dropFront, if_neg (by omega), if_neg (by omega)]

/-- A piece in front of a cut is a piece of the row, or the head of the one that was cut. -/
theorem exists_of_mem_takeFront {n : Nat} {ps : List Piece} {p : Piece} (h : p ∈ takeFront n ps) :
    ∃ q ∈ ps, p = q ∨ ∃ k, 0 < k ∧ k < q.length ∧ p = q.head k := by
  induction ps generalizing n with
  | nil => simp [takeFront] at h
  | cons q ps ih =>
    rw [takeFront] at h
    split at h
    · cases h
    · split at h
      · rcases List.mem_cons.mp h with rfl | h
        · exact ⟨p, by simp, .inl rfl⟩
        · obtain ⟨r, hr, hp⟩ := ih h
          exact ⟨r, List.mem_cons_of_mem q hr, hp⟩
      · exact ⟨q, by simp, .inr ⟨n, by omega, by omega, List.mem_singleton.mp h⟩⟩

/-- A piece behind a cut is a piece of the row, or the tail of the one that was cut. -/
theorem exists_of_mem_dropFront {n : Nat} {ps : List Piece} {p : Piece} (h : p ∈ dropFront n ps) :
    ∃ q ∈ ps, p = q ∨ ∃ k, 0 < k ∧ k < q.length ∧ p = q.tail k := by
  induction ps generalizing n with
  | nil => simp [dropFront] at h
  | cons q ps ih =>
    rw [dropFront] at h
    split at h
    · exact ⟨p, h, .inl rfl⟩
    · split at h
      · obtain ⟨r, hr, hp⟩ := ih h
        exact ⟨r, List.mem_cons_of_mem q hr, hp⟩
      · rcases List.mem_cons.mp h with rfl | h
        · exact ⟨q, by simp, .inr ⟨n, by omega, by omega, rfl⟩⟩
        · exact ⟨p, List.mem_cons_of_mem q h, .inl rfl⟩

theorem size_takeFront (n : Nat) (ps : List Piece) (h : n ≤ totalLength ps) :
    totalLength (takeFront n ps) = n := by
  induction ps generalizing n with
  | nil =>
    simp only [totalLength] at h
    simp only [takeFront, totalLength]
    omega
  | cons p ps ih =>
    simp only [totalLength] at h
    rw [takeFront]
    split
    · simp only [totalLength]
      omega
    · split
      · have := ih (n - p.length) (by omega)
        simp only [totalLength, this]
        omega
      · simp [totalLength]

theorem size_dropFront (n : Nat) (ps : List Piece) :
    totalLength (dropFront n ps) = totalLength ps - n := by
  induction ps generalizing n with
  | nil => simp [dropFront, totalLength]
  | cons p ps ih =>
    rw [dropFront]
    split
    · simp only [totalLength]
      omega
    · split
      · rw [ih]
        simp only [totalLength]
        omega
      · simp only [totalLength, length_tail]
        omega

theorem totalLength_append (ps qs : List Piece) :
    totalLength (ps ++ qs) = totalLength ps + totalLength qs := by
  induction ps with
  | nil => simp [totalLength]
  | cons p ps ih => simp only [List.cons_append, totalLength, ih, Nat.add_assoc]

/-- Where in the source a range begins that begins at a position of a row of pieces. Behind the last
piece that is the end of the source. -/
def startIn (sourceSize : Nat) : List Piece → Nat → Nat
  | [], _ => sourceSize
  | p :: ps, pos => if pos < p.length then p.startAt pos else startIn sourceSize ps (pos - p.length)

/-- Where in the source a range ends that ends at a position of a row of pieces, other than the
front. Behind the last piece that is the end of the source. -/
def stopIn (sourceSize : Nat) : List Piece → Nat → Nat
  | [], _ => sourceSize
  | p :: ps, pos => if pos ≤ p.length then p.stopAt pos else stopIn sourceSize ps (pos - p.length)

end Piece

/-- Where every piece of a working text came from, and the size of the source. -/
structure Provenance where
  pieces : List Piece
  sourceSize : Nat
  deriving DecidableEq, Repr

namespace Provenance

open Piece

/-- A working text that is the source itself. -/
def identity (size : Nat) : Provenance := ⟨if size = 0 then [] else [.copied 0 size], size⟩

/-- Number of bytes of the working text. -/
def size (m : Provenance) : Nat := totalLength m.pieces

/-- Where in the source a range of the working text begins, given where it begins there. -/
def startOf (m : Provenance) (pos : Nat) : Nat := startIn m.sourceSize m.pieces pos

/-- Where in the source a range of the working text ends, given where it ends there. -/
def stopOf (m : Provenance) (pos : Nat) : Nat :=
  if pos = 0 then 0 else stopIn m.sourceSize m.pieces pos

/-- Where in the source a range of the working text ends, or where it begins if that is later. -/
def stopFrom (m : Provenance) (start stop : Nat) : Nat := max (m.stopOf stop) (m.startOf start)

/-- The working text with a range of it replaced by some bytes. -/
def replace (m : Provenance) (start stop length : Nat) : Provenance where
  pieces :=
    takeFront start m.pieces ++
      (if length = 0 then [] else [.replaced length (m.startOf start) (m.stopFrom start stop)]) ++
      dropFront stop m.pieces
  sourceSize := m.sourceSize

@[simp] theorem size_identity (n : Nat) : (identity n).size = n := by
  by_cases h : n = 0 <;> simp [identity, size, totalLength, h, Piece.length]

theorem size_replace (m : Provenance) (start stop length : Nat) (h : start ≤ m.size) :
    (m.replace start stop length).size = start + length + (m.size - stop) := by
  simp only [size, replace, totalLength_append, size_takeFront start m.pieces h, size_dropFront]
  by_cases hl : length = 0 <;> simp [hl, totalLength, Piece.length]

end Provenance

end MarkupTransfer
