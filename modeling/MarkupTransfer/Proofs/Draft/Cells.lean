import MarkupTransfer.Draft.Basic
import MarkupTransfer.Proofs.Text.Slices
/-!
# Working text in cells

A cell is a stretch of working text that stands for a stretch of the source as a whole. A copied
character is a cell; so is what has been put in for something else. As long as edits do not reach
into cells, a draft is a row of cells: its source is what they stand for, its working text what they
show, and a place between two cells is found in the source where it should be.

* `Covers.startIn_eq`, `Covers.stopIn_eq`: places between cells are translated exactly.
* `Covers.cut`: pieces are cut where cells are.
* `IsRow.replace`: putting a text in the place of some cells makes one cell of them.
-/

namespace MarkupTransfer

open Text (size)

/-- A stretch of working text and the stretch of the source that it stands for. -/
structure Cell where
  raw : Text
  shown : Text
  deriving DecidableEq, Repr

namespace Cell

/-- A character that was copied. -/
def plain (c : Char) : Cell := ⟨[c], [c]⟩

/-- The source of a row of cells. -/
def raws (cs : List Cell) : Text := cs.flatMap raw

/-- The working text of a row of cells. -/
def showns (cs : List Cell) : Text := cs.flatMap shown

@[simp] theorem raws_nil : raws [] = [] := rfl

@[simp] theorem showns_nil : showns [] = [] := rfl

@[simp] theorem raws_cons (c : Cell) (cs : List Cell) : raws (c :: cs) = c.raw ++ raws cs := rfl

@[simp] theorem showns_cons (c : Cell) (cs : List Cell) :
    showns (c :: cs) = c.shown ++ showns cs := rfl

@[simp] theorem raws_append (as bs : List Cell) : raws (as ++ bs) = raws as ++ raws bs := by
  simp [raws]

@[simp] theorem showns_append (as bs : List Cell) :
    showns (as ++ bs) = showns as ++ showns bs := by
  simp [showns]

@[simp] theorem raws_map_plain (t : Text) : raws (t.map plain) = t := by
  induction t with
  | nil => rfl
  | cons c t ih => simp [plain, ih]

@[simp] theorem showns_map_plain (t : Text) : showns (t.map plain) = t := by
  induction t with
  | nil => rfl
  | cons c t ih => simp [plain, ih]

end Cell

open Cell (plain raws showns)

theorem Cell.size_showns_pos {cs : List Cell} (h : ∀ c ∈ cs, c.shown ≠ []) (hne : cs ≠ []) :
    0 < size (showns cs) := by
  cases cs with
  | nil => exact absurd rfl hne
  | cons c cs =>
    have := Text.size_pos (h c (by simp))
    rw [showns_cons, Text.size_append]
    omega

/-! ## Pieces and cells -/

/-- Pieces cover cells that stand from `start` on in the source: a copied piece covers a cell for
each of its characters, a replaced one a single cell. -/
inductive Covers : Nat → List Piece → List Cell → Prop
  | nil (start : Nat) : Covers start [] []
  | copied {start : Nat} {t : Text} {ps : List Piece} {cs : List Cell} :
      t ≠ [] → Covers (start + size t) ps cs →
      Covers start (.copied start (size t) :: ps) (t.map plain ++ cs)
  | replaced {start : Nat} {c : Cell} {ps : List Piece} {cs : List Cell} :
      c.shown ≠ [] → Covers (start + size c.raw) ps cs →
      Covers start (.replaced (size c.shown) start (start + size c.raw) :: ps) (c :: cs)

namespace Covers

open Piece (takeFront dropFront startIn stopIn)

variable {start : Nat} {ps : List Piece} {cs : List Cell}

theorem append {qs : List Piece} {ds : List Cell} (h : Covers start ps cs)
    (h' : Covers (start + size (raws cs)) qs ds) : Covers start (ps ++ qs) (cs ++ ds) := by
  induction h with
  | nil start => simpa using h'
  | copied ht _ ih =>
    rw [List.append_assoc]
    exact copied ht (ih (by simpa [Nat.add_assoc] using h'))
  | replaced hc _ ih => exact replaced hc (ih (by simpa [Nat.add_assoc] using h'))

theorem shown_ne_nil (h : Covers start ps cs) : ∀ c ∈ cs, c.shown ≠ [] := by
  induction h with
  | nil => simp
  | copied _ _ ih =>
    intro c hc
    rcases List.mem_append.mp hc with hc | hc
    · obtain ⟨d, -, rfl⟩ := List.mem_map.mp hc
      simp [plain]
    · exact ih c hc
  | replaced hc _ ih => exact List.forall_mem_cons.mpr ⟨hc, ih⟩

/-- **Pieces are cut where cells are.** -/
theorem cut {as bs : List Cell} (h : Covers start ps (as ++ bs)) :
    Covers start (takeFront (size (showns as)) ps) as ∧
      Covers (start + size (raws as)) (dropFront (size (showns as)) ps) bs := by
  generalize hcs : as ++ bs = cs at h
  induction h generalizing as with
  | nil start =>
    obtain ⟨rfl, rfl⟩ := List.append_eq_nil_iff.mp hcs
    exact ⟨nil _, nil _⟩
  | @copied start t ps cs ht hrest ih =>
    have hpos : 0 < (Piece.copied start (size t)).length := Text.size_pos ht
    have hbehind : ∀ xs, xs ++ bs = cs →
        Covers start (takeFront (size t + size (showns xs)) (.copied start (size t) :: ps))
            (t.map plain ++ xs) ∧
          Covers (start + (size t + size (raws xs)))
            (dropFront (size t + size (showns xs)) (.copied start (size t) :: ps)) bs := by
      intro xs hxs
      obtain ⟨hfront, hback⟩ := ih hxs
      have htake := Piece.takeFront_whole ps hpos (size (showns xs))
      have hdrop := Piece.dropFront_whole ps hpos (size (showns xs))
      simp only [Piece.length] at htake hdrop
      rw [htake, hdrop, ← Nat.add_assoc]
      exact ⟨copied ht hfront, hback⟩
    rcases List.append_eq_append_iff.mp hcs with ⟨xs, hxs, rfl⟩ | ⟨xs, rfl, hcs'⟩
    · obtain ⟨t₁, t₂, rfl, rfl, rfl⟩ := List.map_eq_append_iff.mp hxs
      by_cases h₂ : t₂ = []
      · subst h₂
        simpa using hbehind [] rfl
      have hback : Covers (start + size t₁) (.copied (start + size t₁) (size t₂) :: ps)
          (t₂.map plain ++ cs) :=
        copied h₂ (by simpa [Nat.add_assoc] using hrest)
      by_cases h₁ : t₁ = []
      · subst h₁
        simpa [Piece.takeFront_zero, Piece.dropFront_zero] using ⟨nil start, hback⟩
      -- The cut is inside the copied text.
      have hsize := Text.size_pos h₂
      have hlt : size t₁ < (Piece.copied start (size (t₁ ++ t₂))).length := by
        simp only [Piece.length, Text.size_append]
        omega
      rw [Cell.showns_map_plain, Cell.raws_map_plain,
        Piece.takeFront_inside ps (Text.size_pos h₁) hlt,
        Piece.dropFront_inside ps (Text.size_pos h₁) hlt]
      simp only [Piece.head, Piece.tail, Text.size_append, Nat.add_sub_cancel_left]
      exact ⟨by simpa using copied h₁ (nil _), hback⟩
    · simpa using hbehind xs hcs'.symm
  | @replaced start c ps cs hc hrest ih =>
    cases as with
    | nil =>
      obtain rfl : bs = c :: cs := hcs
      simpa [Piece.takeFront_zero, Piece.dropFront_zero] using ⟨nil start, replaced hc hrest⟩
    | cons a as =>
      obtain ⟨rfl, hcs'⟩ := List.cons.inj hcs
      have hpos : 0 < (Piece.replaced (size a.shown) start (start + size a.raw)).length :=
        Text.size_pos hc
      obtain ⟨hfront, hback⟩ := ih hcs'
      have htake := Piece.takeFront_whole ps hpos (size (showns as))
      have hdrop := Piece.dropFront_whole ps hpos (size (showns as))
      simp only [Piece.length] at htake hdrop
      rw [Cell.showns_cons, Cell.raws_cons, Text.size_append, Text.size_append, htake, hdrop,
        ← Nat.add_assoc]
      exact ⟨replaced hc hfront, hback⟩

/-- **Where a range begins that begins between two cells.** -/
theorem startIn_eq {as bs : List Cell} (h : Covers start ps (as ++ bs)) :
    startIn (start + size (raws (as ++ bs))) ps (size (showns as)) = start + size (raws as) := by
  generalize hcs : as ++ bs = cs at h
  induction h generalizing as with
  | nil start =>
    obtain ⟨rfl, rfl⟩ := List.append_eq_nil_iff.mp hcs
    rfl
  | @copied start t ps cs ht hrest ih =>
    have hbehind : ∀ xs, xs ++ bs = cs →
        startIn (start + size (raws (t.map plain ++ cs))) (.copied start (size t) :: ps)
          (size t + size (showns xs)) = start + (size t + size (raws xs)) := by
      intro xs hxs
      rw [startIn, if_neg (by simp [Piece.length])]
      simpa [Piece.length, Nat.add_assoc] using ih hxs
    rcases List.append_eq_append_iff.mp hcs with ⟨xs, hxs, rfl⟩ | ⟨xs, rfl, hcs'⟩
    · obtain ⟨t₁, t₂, rfl, rfl, rfl⟩ := List.map_eq_append_iff.mp hxs
      by_cases h₂ : t₂ = []
      · subst h₂
        simpa using hbehind [] rfl
      · have := Text.size_pos h₂
        rw [startIn, if_pos (by
          simp only [Cell.showns_map_plain, Piece.length, Text.size_append]
          omega)]
        simp [Piece.startAt]
    · simpa using hbehind xs hcs'.symm
  | @replaced start c ps cs hc hrest ih =>
    have hpos := Text.size_pos hc
    cases as with
    | nil =>
      rw [startIn, if_pos (by simpa [Piece.length] using hpos)]
      rfl
    | cons a as =>
      obtain ⟨rfl, hcs'⟩ := List.cons.inj hcs
      rw [startIn, if_neg (by simp [Piece.length])]
      simpa [Piece.length, Nat.add_assoc] using ih hcs'

/-- **Where a range ends that ends between two cells**, other than in front of all of them. -/
theorem stopIn_eq {as bs : List Cell} (h : Covers start ps (as ++ bs)) (hne : as ≠ []) :
    stopIn (start + size (raws (as ++ bs))) ps (size (showns as)) = start + size (raws as) := by
  generalize hcs : as ++ bs = cs at h
  induction h generalizing as with
  | nil start => exact absurd (List.append_eq_nil_iff.mp hcs).1 hne
  | @copied start t ps cs ht hrest ih =>
    rcases List.append_eq_append_iff.mp hcs with ⟨xs, hxs, rfl⟩ | ⟨xs, rfl, hcs'⟩
    · obtain ⟨t₁, t₂, rfl, rfl, rfl⟩ := List.map_eq_append_iff.mp hxs
      rw [stopIn, if_pos (by simp [Piece.length])]
      simp [Piece.stopAt]
    · by_cases hxs : xs = []
      · subst hxs
        simp [stopIn, Piece.length, Piece.stopAt]
      · have hpos := Cell.size_showns_pos
          (fun c hc => hrest.shown_ne_nil c (by simp [hcs', hc])) hxs
        rw [stopIn, if_neg (by
          simp only [Piece.length, Cell.showns_append, Cell.showns_map_plain, Text.size_append]
          omega)]
        simpa [Piece.length, Nat.add_assoc] using ih hxs hcs'.symm
  | @replaced start c ps cs hc hrest ih =>
    cases as with
    | nil => exact absurd rfl hne
    | cons a as =>
      obtain ⟨rfl, hcs'⟩ := List.cons.inj hcs
      by_cases has : as = []
      · subst has
        simp [stopIn, Piece.length, Piece.stopAt]
      · have hpos := Cell.size_showns_pos
          (fun c hc => hrest.shown_ne_nil c (by simp [← hcs', hc])) has
        rw [stopIn, if_neg (by simp only [Piece.length, Cell.showns_cons, Text.size_append]; omega)]
        simpa [Piece.length, Nat.add_assoc] using ih has hcs'

end Covers

/-! ## Drafts in cells -/

/-- A draft that is a row of cells. -/
structure Draft.IsRow (d : Draft) (cs : List Cell) : Prop where
  source_eq : d.source = some (raws cs)
  buffer_eq : d.buffer = showns cs
  covers : Covers 0 d.provenance.pieces cs
  sourceSize_eq : d.provenance.sourceSize = size (raws cs)

namespace Draft.IsRow

variable {d : Draft} {as ms bs : List Cell}

/-- A new draft is a row of copied characters. -/
theorem ofText (t : Text) : (Draft.ofText t).IsRow (t.map plain) where
  source_eq := by simp [Draft.ofText]
  buffer_eq := by simp [Draft.ofText]
  covers := by
    by_cases ht : t = []
    · subst ht
      exact .nil 0
    · have hsize : size t ≠ 0 := Nat.ne_of_gt (Text.size_pos ht)
      simpa [Draft.ofText, Provenance.identity, hsize] using Covers.copied ht (.nil (0 + size t))
  sourceSize_eq := by simp [Draft.ofText, Provenance.identity]

theorem startOf_eq (h : d.IsRow (as ++ bs)) :
    d.provenance.startOf (size (showns as)) = size (raws as) := by
  simpa [Provenance.startOf, h.sourceSize_eq] using h.covers.startIn_eq

theorem stopFrom_eq (h : d.IsRow (as ++ ms ++ bs)) :
    d.provenance.stopFrom (size (showns as)) (size (showns (as ++ ms))) =
      size (raws (as ++ ms)) := by
  have hstart : d.provenance.startOf (size (showns as)) = size (raws as) :=
    startOf_eq (by simpa using h)
  have hstop : d.provenance.stopOf (size (showns (as ++ ms))) = size (raws (as ++ ms)) := by
    by_cases hne : as ++ ms = []
    · rw [hne]
      rfl
    · have hpos := Cell.size_showns_pos
        (fun c hc => h.covers.shown_ne_nil c (List.mem_append_left bs hc)) hne
      rw [Provenance.stopOf, if_neg (by omega), h.sourceSize_eq]
      simpa using h.covers.stopIn_eq hne
  rw [Provenance.stopFrom, hstart, hstop, Cell.raws_append, Text.size_append]
  omega

/-- **Putting a text in the place of some cells makes one cell of them.** It stands for all that
they stood for. -/
theorem replace (h : d.IsRow (as ++ ms ++ bs)) {r : Text} (hr : r ≠ []) (marks : List Mark) :
    Draft.IsRow
      { d with
        marks := marks
        buffer := d.buffer.splice (size (showns as)) (size (showns (as ++ ms))) r
        provenance := d.provenance.replace (size (showns as)) (size (showns (as ++ ms))) r.size }
      (as ++ [⟨raws ms, r⟩] ++ bs) where
  source_eq := by simpa using h.source_eq
  buffer_eq := by
    have hbefore : Text.before d.buffer (size (showns as)) = showns as := by
      rw [h.buffer_eq, List.append_assoc, Cell.showns_append, Text.before_append_size]
    have hafter : Text.after d.buffer (size (showns (as ++ ms))) = showns bs := by
      rw [h.buffer_eq, Cell.showns_append, Text.after_append_size]
    rw [Text.splice, hbefore, hafter]
    simp
  covers := by
    have hfront : Covers 0 (Piece.takeFront (size (showns as)) d.provenance.pieces) as :=
      (Covers.cut (by simpa using h.covers)).1
    have hback : Covers (0 + size (raws (as ++ ms)))
        (Piece.dropFront (size (showns (as ++ ms))) d.provenance.pieces) bs := h.covers.cut.2
    have hmid : Covers (0 + size (raws as))
        [.replaced (size r) (0 + size (raws as)) (0 + size (raws as) + size (raws ms))]
        [⟨raws ms, r⟩] := .replaced (c := ⟨raws ms, r⟩) hr (.nil _)
    have hlength : size r ≠ 0 := Nat.ne_of_gt (Text.size_pos hr)
    have hstart : d.provenance.startOf (size (showns as)) = size (raws as) :=
      startOf_eq (by simpa using h)
    rw [Provenance.replace, hstart, h.stopFrom_eq, if_neg hlength]
    simpa using (hfront.append hmid).append (by simpa using hback)
  sourceSize_eq := by simpa [Provenance.replace] using h.sourceSize_eq

end Draft.IsRow

end MarkupTransfer
