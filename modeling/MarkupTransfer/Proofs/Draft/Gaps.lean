import Mathlib
import MarkupTransfer.Proofs.Draft.Division
import MarkupTransfer.Proofs.Draft.Succession
import MarkupTransfer.Proofs.Draft.Tokens
/-!
# What stands between accepted marks

The literal spaces of a sentence are what its source has between accepted marks, decoded, and there
is one wherever something stands between them (`AreLaidOut.literal_iff`). Where the source is a row
of cells and marks begin and end between cells, what stands between two marks is a part of the row,
and its cells are those that no accepted mark covers.

* `Accepted.AreLaidOut.literal_iff`: which literal spaces the tokens of accepted marks have.
* `Accepted.exists_leaves`: what is left of a row between accepted marks is some of its cells.
* `Accepted.IsFree.exists_leaves`: a cell that no accepted mark covers is left between some marks.
-/

namespace MarkupTransfer

open Cell (raws showns)
open Text (size slice)

/-! ## Literal spaces -/

namespace Accepted

variable {source : Text} {as : List Accepted} {ts : List Token}

/-- The space that is left of the source at a place among marks. -/
def spaceBetween (source : Text) (before behind : List Accepted) : Option Space :=
  gap source (gapBetween source before behind).start (gapBetween source before behind).stop

theorem Faces.literal_iff {p q : Accepted × Token} (h : Faces source p q) (u : Text) :
    p.2.rightSpace = some (.literal u) ↔
      gap source p.1.mark.stop q.1.mark.start = some (.literal u) := by
  by_cases hlt : p.1.mark.stop < q.1.mark.start
  · rw [h.literal hlt, gap, if_pos hlt]
  · rw [gap, if_neg hlt]
    by_cases hkind : p.2.isTag = q.2.isTag
    · rw [h.none hlt hkind]
    · rw [h.virtual hlt hkind]
      simp

/-- A literal space on a side of a token is what is left of the source there. -/
theorem AreLaidOut.space_iff (h : AreLaidOut source as ts) {front back : List (Accepted × Token)}
    (hrow : as.zip ts = front ++ back) (u : Text) :
    (∀ p ∈ front.getLast?, p.2.rightSpace = some (.literal u) ↔
        spaceBetween source (front.map Prod.fst) (back.map Prod.fst) = some (.literal u)) ∧
      ∀ q ∈ back.head?, q.2.leftSpace = some (.literal u) ↔
        spaceBetween source (front.map Prod.fst) (back.map Prod.fst) = some (.literal u) := by
  rcases List.eq_nil_or_concat' front with rfl | ⟨front, p, rfl⟩
  · refine ⟨by simp, fun q hq => ?_⟩
    obtain ⟨rest, rfl⟩ := List.head?_eq_some_iff.mp hq
    have hfirst := h.first q (by rw [hrow]; rfl)
    rw [hfirst]
    rfl
  have hlast : ∀ p' ∈ (front ++ [p]).getLast?, p = p' := fun p' hp' => by simpa using hp'
  obtain _ | ⟨q, back⟩ := back
  · refine ⟨fun p' hp' => ?_, by simp⟩
    obtain rfl := hlast p' hp'
    have hright := h.last p (by rw [hrow, List.append_nil, List.getLast?_concat]; rfl)
    rw [hright, spaceBetween, gapBetween, List.map_append]
    simp [gap]
  · have hfaces : Faces source p q := by
      have hchain := h.facing
      rw [hrow, List.append_assoc] at hchain
      exact (List.isChain_cons_cons.mp (List.isChain_append.mp hchain).2.1).1
    have hspace : spaceBetween source ((front ++ [p]).map Prod.fst) ((q :: back).map Prod.fst) =
        gap source p.1.mark.stop q.1.mark.start := by
      simp [spaceBetween, gapBetween]
    rw [hspace]
    refine ⟨fun p' hp' => ?_, fun q' hq' => ?_⟩
    · obtain rfl := hlast p' hp'
      exact hfaces.literal_iff u
    · obtain rfl : q = q' := Option.some.inj hq'
      rw [← hfaces.agree]
      exact hfaces.literal_iff u

/-- **The literal spaces of tokens** are what is left of the source at the places among their marks,
if there are any. -/
theorem AreLaidOut.literal_iff (h : AreLaidOut source as ts) (u : Text) :
    (∃ token ∈ ts, token.leftSpace = some (.literal u) ∨ token.rightSpace = some (.literal u)) ↔
      as ≠ [] ∧ ∃ before behind, as = before ++ behind ∧
        spaceBetween source before behind = some (.literal u) := by
  have hfst := h.map_fst_zip
  constructor
  · rintro ⟨token, hmem, hspace⟩
    rw [← h.map_snd_zip] at hmem
    obtain ⟨p, hp, rfl⟩ := List.mem_map.mp hmem
    obtain ⟨front, back, hrow⟩ := List.append_of_mem hp
    refine ⟨List.ne_nil_of_mem (List.of_mem_zip hp).1, ?_⟩
    rcases hspace with hleft | hright
    · refine ⟨front.map Prod.fst, (p :: back).map Prod.fst, ?_, ?_⟩
      · rw [← hfst, hrow, List.map_append]
      · exact ((h.space_iff hrow u).2 p rfl).mp hleft
    · have hrow' : as.zip ts = (front ++ [p]) ++ back := by simpa using hrow
      refine ⟨(front ++ [p]).map Prod.fst, back.map Prod.fst, ?_, ?_⟩
      · rw [← hfst, hrow', List.map_append]
      · exact ((h.space_iff hrow' u).1 p (by simp)).mp hright
  · rintro ⟨hne, before, behind, has, hspace⟩
    obtain ⟨front, back, hrow, rfl, rfl⟩ := List.map_eq_append_iff.mp (hfst.trans has)
    obtain ⟨hright, hleft⟩ := h.space_iff hrow u
    have hmem : ∀ p ∈ as.zip ts, p.2 ∈ ts := fun p hp => (List.of_mem_zip hp).2
    rcases List.eq_nil_or_concat' front with rfl | ⟨front, p, rfl⟩
    · obtain _ | ⟨q, back⟩ := back
      · exact absurd has hne
      · exact ⟨q.2, hmem q (by simp [hrow]), .inl ((hleft q rfl).mpr hspace)⟩
    · exact ⟨p.2, hmem p (by simp [hrow]), .inr ((hright p (by simp)).mpr hspace)⟩

end Accepted

/-! ## Gaps in a row of cells -/

/-- Of two places in a row the one that comes first in the source comes first in the row. -/
theorem Cell.exists_append_of_size_le {as bs as' bs' : List Cell} (h : ∀ c ∈ as ++ bs, c.IsGlyph)
    (hrow : as ++ bs = as' ++ bs') (hle : size (raws as) ≤ size (raws as')) :
    ∃ ms, as' = as ++ ms ∧ bs = ms ++ bs' := by
  rcases List.append_eq_append_iff.mp hrow with ⟨ms, rfl, rfl⟩ | ⟨ms, rfl, rfl⟩
  · exact ⟨ms, rfl, rfl⟩
  · obtain rfl : ms = [] := by
      by_contra hne
      have hpos := Text.size_pos (raws_ne_nil (fun c hc => h c (by simp [hc])) hne)
      rw [raws_append, Text.size_append] at hle
      omega
    exact ⟨[], by simp, rfl⟩

/-- The range of a cell in the source, given the cells in front. -/
def Cell.rangeBehind (front : List Cell) (c : Cell) : Range where
  start := size (raws front)
  stop := size (raws front) + size c.raw

/-- The range that some cells of a row cover meets the range of a cell just if that is one of
them. -/
theorem Cell.meets_rangeBehind_iff {front ms back as bs : List Cell} {c : Cell}
    (h : ∀ x ∈ as ++ c :: bs, x.IsGlyph) (hrow : as ++ c :: bs = front ++ ms ++ back) :
    Range.Meets ⟨size (raws front), size (raws front) + size (raws ms)⟩ (c.rangeBehind as) ↔
      ∃ xs ys, as = front ++ xs ∧ ms = xs ++ c :: ys := by
  have hpos : 0 < size c.raw := Text.size_pos (h c (by simp)).raw_ne_nil
  constructor
  · rintro ⟨-, -, hfront, hback⟩
    simp only [rangeBehind, ← Text.size_append, ← raws_append front] at hfront hback
    have hthrough : raws (as ++ [c]) = raws as ++ c.raw := by simp
    have hrow' : front ++ (ms ++ back) = as ++ [c] ++ bs := by simp [hrow]
    rw [← hthrough] at hfront
    obtain ⟨zs, hzs, -⟩ := exists_append_of_size_le (by simpa [hrow'] using h) hrow'
      (Nat.le_of_lt hfront)
    rcases List.eq_nil_or_concat' zs with rfl | ⟨xs, x, rfl⟩
    · rw [hzs, List.append_nil] at hfront
      exact absurd hfront (Nat.lt_irrefl _)
    obtain ⟨rfl, hx⟩ := List.append_inj' (hzs.trans (List.append_assoc ..).symm) rfl
    obtain rfl : c = x := List.singleton_inj.mp hx
    obtain ⟨ws, hws, hbs⟩ := exists_append_of_size_le h hrow (Nat.le_of_lt hback)
    obtain _ | ⟨w, ys⟩ := ws
    · rw [hws, List.append_nil] at hback
      exact absurd hback (Nat.lt_irrefl _)
    obtain ⟨rfl, -⟩ := List.cons.inj hbs
    exact ⟨xs, ys, rfl, List.append_cancel_left (hws.trans (List.append_assoc ..))⟩
  · rintro ⟨xs, ys, rfl, rfl⟩
    simp only [Range.Meets, rangeBehind, raws_append, raws_cons, Text.size_append]
    omega

/-- Cells of a row whose ranges meet are one. -/
theorem Cell.eq_of_meets {as bs as' bs' : List Cell} {c c' : Cell}
    (h : ∀ x ∈ as ++ c :: bs, x.IsGlyph) (hrow : as ++ c :: bs = as' ++ c' :: bs')
    (hmeets : (c'.rangeBehind as').Meets (c.rangeBehind as)) : c = c' := by
  have hsplit : as ++ c :: bs = as' ++ [c'] ++ bs' := by simp [hrow]
  obtain ⟨xs, ys, -, hcells⟩ :=
    (meets_rangeBehind_iff h hsplit).mp (by simpa [rangeBehind] using hmeets)
  obtain ⟨rfl, hcons⟩ | ⟨-, hcons⟩ := List.singleton_eq_append_iff.mp hcells
  · exact (List.head_eq_of_cons_eq hcons)
  · cases hcons

/-- A mark covers some cells of a row. -/
def Mark.CoversCells (cs : List Cell) (m : Mark) : Prop :=
  ∃ front ms back, cs = front ++ ms ++ back ∧ ms ≠ [] ∧ m.start = size (raws front) ∧
    m.stop = size (raws (front ++ ms))

theorem Mark.CoversCells.start_lt_stop {cs : List Cell} {m : Mark} (h : m.CoversCells cs)
    (hcs : ∀ c ∈ cs, c.IsGlyph) : m.start < m.stop := by
  obtain ⟨front, ms, back, rfl, hne, hstart, hstop⟩ := h
  have := Text.size_pos (Cell.raws_ne_nil (fun c hc => hcs c (by simp [hc])) hne)
  rw [hstart, hstop, Cell.raws_append, Text.size_append]
  omega

namespace Accepted

variable {source : Text} {as before behind : List Accepted} {cs : List Cell}

/-- No accepted mark reaches over a cell. -/
def IsFree (as : List Accepted) (front : List Cell) (c : Cell) : Prop :=
  ∀ a ∈ as, ¬ a.mark.range.Meets (c.rangeBehind front)

/-- Some cells of a row are what is left of it at a place among marks. -/
structure Leaves (source : Text) (before behind : List Accepted) (front ms : List Cell) : Prop where
  ne_nil : ms ≠ []
  start_eq : (gapBetween source before behind).start = size (raws front)
  stop_eq : (gapBetween source before behind).stop = size (raws (front ++ ms))

/-- **What is left between marks that cover cells** are cells. -/
theorem exists_leaves (hcs : ∀ c ∈ cs, c.IsGlyph) (hsource : raws cs = source)
    (hcovers : ∀ a ∈ before ++ behind, a.mark.CoversCells cs)
    (hlt : (gapBetween source before behind).start < (gapBetween source before behind).stop) :
    ∃ front ms back, cs = front ++ ms ++ back ∧ Leaves source before behind front ms := by
  obtain ⟨front, rest, hfront, hstart⟩ : ∃ front rest, cs = front ++ rest ∧
      (gapBetween source before behind).start = size (raws front) := by
    rcases List.eq_nil_or_concat' before with rfl | ⟨before, a, rfl⟩
    · exact ⟨[], cs, rfl, rfl⟩
    · obtain ⟨front, ms, back, hrow, -, -, hstop⟩ := hcovers a (by simp)
      exact ⟨front ++ ms, back, hrow, by simpa [gapBetween] using hstop⟩
  obtain ⟨through, back, hthrough, hstop⟩ : ∃ through back, cs = through ++ back ∧
      (gapBetween source before behind).stop = size (raws through) := by
    obtain _ | ⟨b, behind⟩ := behind
    · exact ⟨cs, [], by simp, by simp [gapBetween, hsource]⟩
    · obtain ⟨front, ms, back, hrow, -, hstart, -⟩ := hcovers b (by simp)
      exact ⟨front, ms ++ back, by simpa using hrow, by simpa [gapBetween] using hstart⟩
  obtain ⟨ms, rfl, rfl⟩ := Cell.exists_append_of_size_le (by rwa [← hfront])
    (hfront.symm.trans hthrough) (by omega)
  refine ⟨front, ms, back, by rw [hfront, List.append_assoc], ?_, hstart, hstop⟩
  rintro rfl
  rw [hstart, hstop, List.append_nil] at hlt
  exact Nat.lt_irrefl _ hlt

namespace Leaves

variable {front ms back : List Cell}

/-- Cells that are left make a literal space. -/
theorem spaceBetween_eq (h : Leaves (raws (front ++ ms ++ back)) before behind front ms)
    (hcs : ∀ c ∈ ms, c.IsGlyph) :
    spaceBetween (raws (front ++ ms ++ back)) before behind =
      some (.literal (Markup.unescape (raws ms))) := by
  have hpos := Text.size_pos (Cell.raws_ne_nil hcs h.ne_nil)
  rw [spaceBetween, gap, h.start_eq, h.stop_eq, Cell.raws_append front ms, Text.size_append,
    if_pos (by omega), Cell.raws_append, Cell.raws_append, Text.slice_size]

/-- No accepted mark reaches over a cell that is left. -/
theorem isFree {d : Draft} (h : Leaves source before behind front ms)
    (hreach : Draft.Reachable source d) (hrow : Mark.accepted d.marks = before ++ behind)
    (hcovers : ∀ a ∈ Mark.accepted d.marks, a.mark.start < a.mark.stop) {xs ys : List Cell}
    {c : Cell} (hms : ms = xs ++ c :: ys) : IsFree (Mark.accepted d.marks) (front ++ xs) c := by
  intro a ha hmeets
  obtain ⟨p, hp, hcell⟩ := Range.meets_iff.mp hmeets
  refine hreach.not_mem_range_of_mem_gapBetween hrow (fun b hb _ _ hin => ?_) ?_ a (hrow ▸ ha) hp
  · have := hcovers b (hrow ▸ List.mem_append_left _ (List.mem_of_getLast? hb))
    exact Nat.ne_of_lt this hin.1
  · obtain ⟨hstart, hstop⟩ := Range.mem_def.mp hcell
    rw [Range.mem_def, h.start_eq, h.stop_eq, hms]
    simp only [Cell.rangeBehind, Cell.raws_append, Cell.raws_cons, Text.size_append]
      at hstart hstop ⊢
    omega

end Leaves

/-- **A cell that no accepted mark reaches over is left** at some place among the marks. -/
theorem IsFree.exists_leaves {front back : List Cell} {c : Cell} (h : IsFree as front c)
    (hcs : ∀ x ∈ front ++ c :: back, x.IsGlyph) (hsource : raws (front ++ c :: back) = source)
    (hcovers : ∀ a ∈ as, a.mark.CoversCells (front ++ c :: back)) :
    ∃ before behind front' xs ys back', as = before ++ behind ∧ front = front' ++ xs ∧
      front ++ c :: back = front' ++ (xs ++ c :: ys) ++ back' ∧
      Leaves source before behind front' (xs ++ c :: ys) := by
  have hpos : 0 < size c.raw := Text.size_pos (hcs c (by simp)).raw_ne_nil
  -- The place is behind the marks that end in front of the cell.
  let ends : Accepted → Bool := fun a => decide (a.mark.stop ≤ size (raws front))
  have hsplit : as.takeWhile ends ++ as.dropWhile ends = as := List.takeWhile_append_dropWhile
  have hstart : (gapBetween source (as.takeWhile ends) (as.dropWhile ends)).start ≤
      size (raws front) := by
    cases hlast : (as.takeWhile ends).getLast? with
    | none => simp [gapBetween, hlast]
    | some a =>
      have := List.mem_takeWhile_imp (List.mem_of_getLast? hlast)
      simpa [gapBetween, hlast, ends] using this
  have hstop : size (raws (front ++ [c])) ≤
      (gapBetween source (as.takeWhile ends) (as.dropWhile ends)).stop := by
    have hcell : raws [c] = c.raw := by simp
    rw [Cell.raws_append, Text.size_append, hcell]
    cases hhead : (as.dropWhile ends).head? with
    | none =>
      have hwhole : size (raws front) + size c.raw ≤ size source := by
        rw [← hsource, Cell.raws_append, Cell.raws_cons, Text.size_append, Text.size_append]
        omega
      simpa [gapBetween, hhead] using hwhole
    | some b =>
      have hb : b ∈ as := (List.dropWhile_sublist ends).subset (List.mem_of_head? hhead)
      have hbehind : ends b = false := by simpa [hhead] using List.head?_dropWhile_not ends as
      -- Reaching neither over the cell nor into the cells in front, a mark starts behind the cell.
      have hfree := h b hb
      have hpos' := (hcovers b hb).start_lt_stop hcs
      simp only [ends, decide_eq_false_iff_not] at hbehind
      simp only [Range.Meets, Mark.range, Cell.rangeBehind] at hfree
      simp only [gapBetween, hhead, Option.map_some, Option.getD_some]
      omega
  rw [← hsplit] at hcovers
  obtain ⟨front', ms, back', hrow, hleaves⟩ := Accepted.exists_leaves hcs hsource hcovers (by
    rw [Cell.raws_append, Text.size_append, Cell.raws_cons, Text.size_append] at hstop
    omega)
  have hstart' := hleaves.start_eq
  have hstop' := hleaves.stop_eq
  rw [hrow] at hcs
  obtain ⟨xs, rfl, -⟩ := Cell.exists_append_of_size_le (by rwa [← List.append_assoc])
    ((List.append_assoc ..).symm.trans hrow.symm) (by omega)
  have hrow' : front' ++ xs ++ c :: back = front' ++ xs ++ [c] ++ back := by simp
  obtain ⟨ys, hms, -⟩ := Cell.exists_append_of_size_le (by rwa [← hrow', hrow])
    (hrow'.symm.trans hrow) (by omega)
  obtain rfl : ms = xs ++ c :: ys := by simpa [List.append_assoc] using hms
  exact ⟨_, _, front', xs, ys, back', hsplit.symm, rfl, hrow, hleaves⟩

end Accepted

end MarkupTransfer
