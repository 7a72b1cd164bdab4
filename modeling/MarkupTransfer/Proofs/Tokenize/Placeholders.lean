import Mathlib
import MarkupTransfer.Proofs.Draft.Gaps
import MarkupTransfer.Proofs.Text.Tabs
import MarkupTransfer.Proofs.Tokenize.Pipelines
import MarkupTransfer.Proofs.Tokenize.References
/-!
# Tabs and line feeds as words

The pass that keeps tabs and line feeds as words comes behind the pass over words and marks single
characters. A segment that is not blank has been marked before, and if it has a tab in it, the mark
of the tab wins and that of the segment is dropped as a whole. By the rules for words only a tab
can be part of such a segment, at its head, and what follows it is attached: combining marks, format
characters and joiners. These make no word then and are left between tokens.

* `Markup.mem_nameMarks`: every tab and line feed of the working text is marked.
* `IsReadWithNames.isFree_cases`, `IsReadWithNames.isFree_of_isBlankTag`: which cells no accepted
  mark covers.
* `IsReadWithNames.exists_literal_iff`: what literal spaces show.
* `isBlank_literal_withSpacePlaceholders`: when all literal spaces are white space.
-/

namespace MarkupTransfer

open Accepted (IsFree)
open Cell (raws showns)
open Markup (blankTagLength cellsWithBlanks isBlankTag nameBlank tagMark)
open Text (WordClass isBlank isBlankChar size)

/-! ## The marks of tabs and line feeds -/

namespace Stretch

variable {cs : List Cell}

/-- The pass over tabs and line feeds treats every cell by itself. -/
theorem divide_blankTagLength (treat : Text → Treatment) (h : ∀ c ∈ cs, c.IsGlyph) :
    divide blankTagLength treat cs =
      cs.map fun c => ⟨[c], if c.shown.any isBlankTag then treat c.shown else .leave⟩ := by
  induction cs with
  | nil => rfl
  | cons c cs ih =>
    obtain ⟨hc, hcs⟩ := List.forall_mem_cons.mp h
    obtain ⟨b, hb⟩ := hc.exists_shown
    have hlength : blankTagLength (showns (c :: cs)) = if isBlankTag b then 1 else 0 := by
      rw [Cell.showns_cons, hb]
      rfl
    rw [List.map_cons, ← ih hcs, hb]
    cases hblank : isBlankTag b with
    | false =>
      rw [divide_cons_of_eq_zero (by rw [hlength, hblank]; rfl)]
      simp [hblank]
    | true =>
      rw [divide_cons_of_eq_succ (by rw [hlength, hblank]; rfl)]
      simp [hblank, hb]

/-- The marks of tabs and line feeds in a row. -/
theorem mem_marks_nameBlank (h : ∀ c ∈ cs, c.IsGlyph) {m : Mark} :
    m ∈ marks (some .word) raws 0 (divide blankTagLength nameBlank cs) ↔
      ∃ front c back b, cs = front ++ c :: back ∧ c.shown = [b] ∧ isBlankTag b = true ∧
        m = ⟨size (raws front), size (raws front) + size c.raw, [b],
          some (Pass.blankPlaceholder [b]), some .word⟩ := by
  have hraws : ∀ front : List Cell, raws ((front.map fun c => (⟨[c],
      if c.shown.any isBlankTag then nameBlank c.shown else .leave⟩ : Stretch)).flatMap
        Stretch.cells) = raws front := by
    intro front
    rw [List.flatMap_map]
    exact congrArg raws (List.flatMap_singleton' front)
  rw [divide_blankTagLength nameBlank h, mem_marks_map]
  simp only [hraws]
  constructor
  · rintro ⟨front, c, back, r, rfl, hr, rfl⟩
    obtain ⟨b, hb⟩ := (h c (by simp)).exists_shown
    cases hblank : isBlankTag b with
    | false => simp [hb, hblank] at hr
    | true =>
      obtain rfl : some (Pass.blankPlaceholder [b]) = r := by simpa [hb, hblank, nameBlank] using hr
      exact ⟨front, c, back, b, rfl, hb, hblank, by simp [hb]⟩
  · rintro ⟨front, c, back, b, rfl, hb, hblank, rfl⟩
    exact ⟨front, c, back, some (Pass.blankPlaceholder [b]), rfl, by simp [hb, hblank, nameBlank],
      by simp [hb]⟩

end Stretch

namespace Markup

/-- **Every tab and line feed of the working text is marked.** -/
theorem mem_nameMarks {t : Text} {m : Mark} :
    m ∈ nameMarks t ↔ ∃ front c back b, cellsWithBlanks t = front ++ c :: back ∧ c.shown = [b] ∧
      isBlankTag b = true ∧ m = ⟨size (raws front), size (raws front) + size c.raw, [b],
        some (Pass.blankPlaceholder [b]), some .word⟩ :=
  Stretch.mem_marks_nameBlank (isGlyph_cellsWithBlanks t)

theorem isBlankChar_of_isBlankTag {b : Char} (h : isBlankTag b = true) : isBlankChar b = true := by
  rcases Bool.or_eq_true_iff.mp h with h | h <;> obtain rfl := eq_of_beq h <;> rfl

end Markup

/-! ## Cells that are left -/

/-- Cells show more than white space if one of them does. -/
theorem Cell.isBlank_showns {c : Cell} (hvisible : isBlank c.shown = false) (xs ys : List Cell) :
    isBlank (showns (xs ++ c :: ys)) = false := by
  rw [isBlank] at hvisible
  rw [isBlank, showns_append, showns_cons, List.all_append, List.all_append, hvisible,
    Bool.false_and, Bool.and_false]

namespace Draft.IsReadWithNames

variable {d : Draft} {t : Text} {groups : List (List Cell)}

/-- Every mark that asks for a token covers some cells. -/
theorem coversCells (h : d.IsReadWithNames t groups) {m : Mark} (hm : m ∈ d.marks)
    (hrole : m.role.isSome) : m.CoversCells (cellsWithBlanks t) := by
  rcases h.mem_marks_cases hm hrole with ⟨o, ho, rfl⟩ | hword | hname
  · obtain ⟨front, back, hrow, hstart⟩ := Markup.exists_cellsWithBlanks_eq ho
    refine ⟨front, [⟨o.text, [' ']⟩], back, by simp [hrow], by simp, hstart, ?_⟩
    simp [tagMark, Text.Occurrence.stop, hstart]
  · obtain ⟨front, group, back, hgroups, hg, rfl⟩ := Stretch.mem_marks_ofGroup.mp hword
    refine ⟨front.flatten, group, back.flatten, ?_, ?_, rfl, by simp⟩
    · rw [← h.flatten_eq, hgroups]
      simp
    · rintro rfl
      cases hg
  · obtain ⟨front, c, back, b, hrow, -, -, rfl⟩ := Markup.mem_nameMarks.mp hname
    exact ⟨front, [c], back, by simp [hrow], by simp, rfl, by simp⟩

theorem coversCells_of_accepted (h : d.IsReadWithNames t groups) {a : Accepted}
    (ha : a ∈ Mark.accepted d.marks) : a.mark.CoversCells (cellsWithBlanks t) := by
  obtain ⟨hm, hrole⟩ := Mark.mem_of_mem_accepted ha
  exact h.coversCells hm (by simp [hrole])

/-- A mark that asks for a token covers something. -/
theorem start_lt_stop (h : d.IsReadWithNames t groups) {m : Mark} (hm : m ∈ d.marks)
    (hrole : m.role.isSome) : m.start < m.stop :=
  (h.coversCells hm hrole).start_lt_stop (Markup.isGlyph_cellsWithBlanks t)

theorem word_mem (h : d.IsReadWithNames t groups) {m : Mark}
    (hm : m ∈ Stretch.marks (some .word) raws 0 (groups.map Stretch.ofGroup)) : m ∈ d.marks := by
  rw [h.marks_eq]
  exact List.mem_append_right _ (List.mem_append_left _ hm)

theorem name_mem (h : d.IsReadWithNames t groups) {m : Mark} (hm : m ∈ Markup.nameMarks t) :
    m ∈ d.marks := by
  rw [h.marks_eq]
  exact List.mem_append_right _ (List.mem_append_right _ hm)

/-- A word gives way to nothing but a tab or a line feed. -/
theorem exists_accepted_of_word (h : d.IsReadWithNames t groups) {m : Mark}
    (hm : m ∈ Stretch.marks (some .word) raws 0 (groups.map Stretch.ofGroup)) :
    ∃ a ∈ Mark.accepted d.marks, (a.mark = m ∨ a.mark ∈ Markup.nameMarks t) ∧
      m.range.Meets a.mark.range := by
  have hrole : m.role.isSome := by simp [Stretch.role_of_mem_marks hm]
  have hcovers := h.start_lt_stop (h.word_mem hm) hrole
  simp only [Mark.mem_accepted, h.marks_eq]
  obtain ⟨a, ha, hlater, hmeets⟩ :=
    Mark.exists_meets_of_mem_append _ (List.mem_append_left _ hm) hrole hcovers
  refine ⟨a, ha, (List.mem_append.mp hlater).imp_left fun hword => ?_, hmeets⟩
  exact (Mark.eq_of_meets_of_pairwise (Stretch.marks_pairwise _ 0 _) hm hword hmeets).symm

/-- Every mark of a tab or a line feed is accepted: these are made last. -/
theorem name_accepted (h : d.IsReadWithNames t groups) {m : Mark}
    (hm : m ∈ Markup.nameMarks t) : ⟨m, .word⟩ ∈ Mark.accepted d.marks := by
  have hcovers : ∀ m ∈ Markup.nameMarks t, m.start < m.stop := fun m hm =>
    h.start_lt_stop (h.name_mem hm) (by simp [Stretch.role_of_mem_marks hm])
  rw [Mark.mem_accepted, h.marks_eq, ← List.append_assoc]
  exact Mark.mem_acceptAll_append hm (Stretch.role_of_mem_marks hm) hcovers
    (Stretch.marks_pairwise _ 0 _)

/-- A cell that is marked by itself is not left. -/
theorem not_isFree_of_mem (h : d.IsReadWithNames t groups) {as : List Cell} {c : Cell} {m : Mark}
    (hm : m ∈ d.marks) (hrole : m.role.isSome) (hrange : m.range = c.rangeBehind as) :
    ¬ IsFree (Mark.accepted d.marks) as c := by
  intro hfree
  obtain ⟨a, ha, hmeets⟩ := Mark.exists_meets_of_mem hm hrole (h.start_lt_stop hm hrole)
  exact hfree a (Mark.mem_accepted.mpr ha) (hrange ▸ hmeets.symm)

variable {as bs : List Cell} {c : Cell}

/-- Tags are not left. -/
theorem isDecoded_of_isFree (h : d.IsReadWithNames t groups)
    (hrow : cellsWithBlanks t = as ++ c :: bs) (hfree : IsFree (Mark.accepted d.marks) as c) :
    c.IsDecoded := by
  rcases (Markup.isRaw_tagRow t).decodedRow_cases hrow with hdecoded | ⟨as', bs', hrow', hraws⟩
  · exact hdecoded
  rcases Markup.tagRow_cases hrow' with ⟨x, rfl⟩ | ⟨o, ho, hstart, rfl⟩
  · exact .plain x
  · have hmem : tagMark o ∈ d.marks := by
      have := List.mem_map_of_mem (f := tagMark) ho
      simp [h.marks_eq, Markup.marks_tagStretches, this]
    refine absurd hfree (h.not_isFree_of_mem hmem rfl ?_)
    rw [hraws] at hstart
    simp [Mark.range, tagMark, Cell.rangeBehind, Text.Occurrence.stop, hstart]

variable {front back : List (List Cell)} {xs ys : List Cell}

/-- Where a cell of a group stands in the row. -/
theorem cellsWithBlanks_eq (h : d.IsReadWithNames t groups)
    (hgroups : groups = front ++ (xs ++ c :: ys) :: back) :
    cellsWithBlanks t = front.flatten ++ xs ++ c :: (ys ++ back.flatten) ∧
      cellsWithBlanks t = front.flatten ++ (xs ++ c :: ys) ++ back.flatten := by
  rw [← h.flatten_eq, hgroups]
  simp

/-- Something is accepted of a text that is not blank. -/
theorem accepted_ne_nil (h : d.IsReadWithNames t groups) (hrow : cellsWithBlanks t = as ++ c :: bs)
    (hvisible : isBlank c.shown = false) : Mark.accepted d.marks ≠ [] := by
  obtain ⟨front, xs, ys, back, hgroups, -, -⟩ := exists_of_flatten_eq (h.flatten_eq.trans hrow)
  obtain ⟨a, ha, -⟩ := h.exists_accepted_of_word (Stretch.mem_marks_ofGroup.mpr
    ⟨front, xs ++ c :: ys, back, hgroups, Cell.isBlank_showns hvisible xs ys, rfl⟩)
  exact List.ne_nil_of_mem ha

/-- **A cell is left of a blank group**, or of one that a tab or a line feed belongs to. -/
theorem isFree_cases (h : d.IsReadWithNames t groups)
    (hgroups : groups = front ++ (xs ++ c :: ys) :: back)
    (hfree : IsFree (Mark.accepted d.marks) (front.flatten ++ xs) c) :
    isBlank (showns (xs ++ c :: ys)) = true ∨
      ∃ b ∈ showns (xs ++ c :: ys), isBlankTag b = true := by
  rw [or_iff_not_imp_left, Bool.not_eq_true]
  intro hg
  obtain ⟨hrow, hgroup⟩ := h.cellsWithBlanks_eq hgroups
  have hglyphs := Markup.isGlyph_cellsWithBlanks t
  have hword := Stretch.mem_marks_ofGroup.mpr ⟨front, xs ++ c :: ys, back, hgroups, hg, rfl⟩
  obtain ⟨a, ha, hmark | hname, hmeets⟩ := h.exists_accepted_of_word hword
  · refine absurd ?_ (hfree a ha)
    rw [hmark]
    exact (Cell.meets_rangeBehind_iff (hrow ▸ hglyphs) (hrow.symm.trans hgroup)).mpr
      ⟨xs, ys, rfl, rfl⟩
  · obtain ⟨as', x, bs', b, hrow', hb, hblank, hmark⟩ := Markup.mem_nameMarks.mp hname
    rw [hmark] at hmeets
    obtain ⟨us, vs, -, hcells⟩ := (Cell.meets_rangeBehind_iff (hrow' ▸ hglyphs)
      (hrow'.symm.trans hgroup)).mp hmeets
    exact ⟨b, by rw [hcells]; simp [hb], hblank⟩

/-- **A word gives way to a tab or a line feed** in it: the later mark is accepted. -/
theorem word_ne_of_isBlankTag (h : d.IsReadWithNames t groups) {group : List Cell}
    (hgroups : groups = front ++ group :: back) {b : Char} (hb : b ∈ showns group)
    (hblank : isBlankTag b = true) {a : Accepted} (ha : a ∈ Mark.accepted d.marks) :
    a.mark ≠ ⟨size (raws front.flatten), size (raws front.flatten) + size (raws group),
      showns group, none, some .word⟩ := by
  intro hmark
  have hglyphs := Markup.isGlyph_cellsWithBlanks t
  obtain ⟨c, hc, hbc⟩ := List.mem_flatMap.mp hb
  obtain ⟨xs, ys, hcells⟩ := List.append_of_mem hc
  obtain ⟨hrow, hgroup⟩ := h.cellsWithBlanks_eq (hcells ▸ hgroups)
  obtain ⟨b', hb'⟩ := (hglyphs c (by simp [hrow])).exists_shown
  obtain rfl : b = b' := by simpa [hb'] using hbc
  have hname := h.name_accepted (Markup.mem_nameMarks.mpr ⟨_, c, _, b, hrow, hb', hblank, rfl⟩)
  have heq := Mark.eq_of_meets (Mark.mem_accepted.mp ha) (Mark.mem_accepted.mp hname) (by
    rw [hmark, hcells]
    exact (Cell.meets_rangeBehind_iff (hrow ▸ hglyphs) (hrow.symm.trans hgroup)).mpr
      ⟨xs, ys, rfl, rfl⟩)
  rw [heq] at hmark
  cases congrArg Mark.replacement hmark

/-- **What is not blank is left** of a group that a tab or a line feed belongs to. -/
theorem isFree_of_isBlankTag (h : d.IsReadWithNames t groups)
    (hgroups : groups = front ++ (xs ++ c :: ys) :: back) (hvisible : isBlank c.shown = false)
    {b : Char} (hb : b ∈ showns (xs ++ c :: ys)) (hblank : isBlankTag b = true) :
    IsFree (Mark.accepted d.marks) (front.flatten ++ xs) c := by
  obtain ⟨hrow, -⟩ := h.cellsWithBlanks_eq hgroups
  have hglyphs := Markup.isGlyph_cellsWithBlanks t
  intro a ha hmeets
  obtain ⟨hm, hrole⟩ := Mark.mem_of_mem_accepted ha
  rcases h.mem_marks_cases hm (by simp [hrole]) with ⟨o, ho, hmark⟩ | hword | hname
  · obtain ⟨as', bs', hrow', hstart⟩ := Markup.exists_cellsWithBlanks_eq ho
    have hrange : a.mark.range = Cell.rangeBehind as' ⟨o.text, [' ']⟩ := by
      rw [hmark]
      simp [Mark.range, tagMark, Cell.rangeBehind, Text.Occurrence.stop, hstart]
    obtain rfl := Cell.eq_of_meets (hrow ▸ hglyphs) (hrow.symm.trans hrow') (hrange ▸ hmeets)
    cases hvisible
  · have hmem := Stretch.mem_marks_ofGroup.mpr
      ⟨front, xs ++ c :: ys, back, hgroups, Cell.isBlank_showns hvisible xs ys, rfl⟩
    refine h.word_ne_of_isBlankTag hgroups hb hblank ha
      (Mark.eq_of_meets_of_pairwise (Stretch.marks_pairwise _ 0 _) hword hmem ?_)
    simp only [Range.Meets, Mark.range, Cell.rangeBehind, Cell.raws_append, Cell.raws_cons,
      Text.size_append] at hmeets ⊢
    omega
  · obtain ⟨as', y, bs', b', hrow', hb', hblank', hmark⟩ := Markup.mem_nameMarks.mp hname
    rw [hmark] at hmeets
    obtain rfl := Cell.eq_of_meets (hrow ▸ hglyphs) (hrow.symm.trans hrow') hmeets
    simp [isBlank, hb', Markup.isBlankChar_of_isBlankTag hblank'] at hvisible

/-- **What is not blank is left just behind a tab** that something is attached to. -/
theorem exists_isFree_iff (h : d.IsReadWithNames t groups) :
    (∃ as c bs, cellsWithBlanks t = as ++ c :: bs ∧ isBlank c.shown = false ∧
        IsFree (Mark.accepted d.marks) as c) ↔
      ∃ left x right, showns (cellsWithBlanks t) = left ++ '\t' :: x :: right ∧
        (WordClass.ofChar x).isAttached = true := by
  constructor
  · rintro ⟨as, c, bs, hrow, hvisible, hfree⟩
    obtain ⟨front, xs, ys, back, hgroups, rfl, -⟩ :=
      exists_of_flatten_eq (h.flatten_eq.trans hrow)
    have hmixed := Bool.not_eq_true _ ▸ Cell.isBlank_showns hvisible xs ys
    have hsegment : showns (xs ++ c :: ys) ∈ Text.segments (showns (cellsWithBlanks t)) := by
      rw [← h.showns_eq, hgroups]
      exact List.mem_map_of_mem (by simp)
    obtain ⟨b, hb, hblank⟩ := (h.isFree_cases hgroups hfree).resolve_left hmixed
    obtain ⟨x, rest, heq, hx⟩ := (Text.isBlank_or_eq_of_mem_segments hsegment hb
      (by simpa [isBlankTag] using hblank)).resolve_left hmixed
    refine ⟨showns front.flatten, x, rest ++ showns back.flatten, ?_, hx⟩
    rw [(h.cellsWithBlanks_eq hgroups).2, Cell.showns_append, Cell.showns_append, heq]
    simp
  · rintro ⟨left, x, right, hshown, hx⟩
    obtain ⟨texts, rest, others, hsegments, -⟩ := Text.exists_segment_of_tab left hx
    have hgroups := h.showns_eq
    rw [hshown, hsegments] at hgroups
    obtain ⟨front, tail, hfront, -, htail⟩ := List.map_eq_append_iff.mp hgroups
    obtain ⟨group, back, rfl, hgroup, -⟩ := List.map_eq_cons_iff.mp htail
    have hglyphs : ∀ c ∈ group, c.IsGlyph := fun c hc =>
      Markup.isGlyph_cellsWithBlanks t c (by simp [← h.flatten_eq, hfront, hc])
    obtain ⟨xs, cs, rfl, hxs, hcs⟩ :=
      Cell.exists_append_of_showns_eq (u := ['\t']) hglyphs hgroup
    obtain _ | ⟨c, ys⟩ := cs
    · cases hcs
    obtain ⟨y, hy⟩ := (hglyphs c (by simp)).exists_shown
    rw [Cell.showns_cons, hy] at hcs
    obtain ⟨rfl, -⟩ := List.cons.inj hcs
    have hvisible : isBlank c.shown = false := by
      simp [isBlank, hy, Text.isBlankChar_of_isAttached hx]
    exact ⟨_, c, _, (h.cellsWithBlanks_eq hfront).1, hvisible,
      h.isFree_of_isBlankTag hfront hvisible (b := '\t') (by simp [hxs]) rfl⟩

/-! ## Literal spaces -/

theorem isFree_of_leaves (h : d.IsReadWithNames t groups) (hreach : Reachable t d)
    {before behind : List Accepted} (has : Mark.accepted d.marks = before ++ behind)
    {front xs ys : List Cell} (hleaves : Accepted.Leaves t before behind front (xs ++ c :: ys)) :
    IsFree (Mark.accepted d.marks) (front ++ xs) c :=
  hleaves.isFree hreach has (fun _ ha => (h.coversCells_of_accepted ha).start_lt_stop
    (Markup.isGlyph_cellsWithBlanks t)) rfl

/-- What is shown by cells that are left is a literal space. -/
theorem spaceBetween_eq (h : d.IsReadWithNames t groups) (hreach : Reachable t d)
    {before behind : List Accepted} (has : Mark.accepted d.marks = before ++ behind)
    {front ms back : List Cell} (hrow : cellsWithBlanks t = front ++ ms ++ back)
    (hleaves : Accepted.Leaves t before behind front ms) :
    Accepted.spaceBetween t before behind = some (.literal (showns ms)) := by
  have hsource : raws (front ++ ms ++ back) = t := hrow ▸ Markup.raws_cellsWithBlanks t
  have hsettled : Cell.IsSettled (cellsWithBlanks t) := (Markup.isRaw_tagRow t).isSettled
  rw [hrow] at hsettled
  have hdecoded : ∀ c ∈ ms, c.IsDecoded := by
    intro c hc
    obtain ⟨xs, ys, rfl⟩ := List.append_of_mem hc
    have hrow' : cellsWithBlanks t = front ++ xs ++ c :: (ys ++ back) := by simp [hrow]
    exact h.isDecoded_of_isFree hrow' (h.isFree_of_leaves hreach has hleaves)
  rw [← hsource] at hleaves ⊢
  rw [hleaves.spaceBetween_eq fun c hc =>
      Markup.isGlyph_cellsWithBlanks t c (by simp [hrow, hc]),
    Cell.unescape_raws hdecoded hsettled.left.right]

/-- **Literal spaces show what is left**, so they are white space just if all that is left is. -/
theorem exists_literal_iff (h : d.IsReadWithNames t groups) (hreach : Reachable t d)
    {ts : List Token} (hlaid : Accepted.AreLaidOut t (Mark.accepted d.marks) ts) :
    (∃ token ∈ ts, ∃ u, (token.leftSpace = some (.literal u) ∨
        token.rightSpace = some (.literal u)) ∧ isBlank u = false) ↔
      ∃ as c bs, cellsWithBlanks t = as ++ c :: bs ∧ isBlank c.shown = false ∧
        IsFree (Mark.accepted d.marks) as c := by
  have hglyphs := Markup.isGlyph_cellsWithBlanks t
  constructor
  · rintro ⟨token, hmem, u, hspace, hu⟩
    obtain ⟨-, before, behind, has, hgap⟩ := (hlaid.literal_iff u).mp ⟨token, hmem, hspace⟩
    have hlt : (Accepted.gapBetween t before behind).start <
        (Accepted.gapBetween t before behind).stop := by
      by_contra hle
      rw [Accepted.spaceBetween, gap, if_neg hle] at hgap
      cases hgap
    obtain ⟨front, ms, back, hrow, hleaves⟩ := Accepted.exists_leaves hglyphs
      (Markup.raws_cellsWithBlanks t) (fun a ha => h.coversCells_of_accepted (has ▸ ha)) hlt
    rw [h.spaceBetween_eq hreach has hrow hleaves] at hgap
    obtain rfl : showns ms = u := by simpa using hgap
    rw [isBlank, showns, List.all_flatMap, List.all_eq_false] at hu
    obtain ⟨c, hc, hvisible⟩ := hu
    obtain ⟨xs, ys, rfl⟩ := List.append_of_mem hc
    exact ⟨front ++ xs, c, ys ++ back, by simp [hrow], Bool.not_eq_true _ ▸ hvisible,
      h.isFree_of_leaves hreach has hleaves⟩
  · rintro ⟨as, c, bs, hrow, hvisible, hfree⟩
    obtain ⟨before, behind, front, xs, ys, back, has, rfl, hrow', hleaves⟩ :=
      hfree.exists_leaves (hrow ▸ hglyphs) (hrow ▸ Markup.raws_cellsWithBlanks t)
        fun a ha => hrow ▸ h.coversCells_of_accepted ha
    obtain ⟨token, hmem, hspace⟩ := (hlaid.literal_iff _).mpr
      ⟨h.accepted_ne_nil hrow hvisible, before, behind, has,
        h.spaceBetween_eq hreach has (hrow.trans hrow') hleaves⟩
    exact ⟨token, hmem, _, hspace, Cell.isBlank_showns hvisible xs ys⟩

end Draft.IsReadWithNames

/-- **Literal spaces are white space just if nothing is attached to a tab.** The passes that keep
tabs and line feeds as words succeed on every text, and all literal spaces on the tokens of its
sentence are white space unless the working text that words are read from has a tab, copied or
decoded, with a combining mark, a format character or a joiner behind it. -/
theorem isBlank_literal_withSpacePlaceholders (options : Options) (t : Text) :
    ∃ d s, (Draft.ofText t).runAll [.xmlTags, .entities] = .ok d ∧
      tokenizeWith options Pass.withSpacePlaceholders t = .ok s ∧
      ((∀ token ∈ s.tokens, ∀ u, token.leftSpace = some (.literal u) ∨
          token.rightSpace = some (.literal u) → isBlank u = true) ↔
        ∀ left c right, d.buffer = left ++ '\t' :: c :: right →
          (WordClass.ofChar c).isAttached = false) := by
  obtain ⟨front, d, groups, hfront, hrow, hrun, h⟩ := Draft.exists_isReadWithNames t
  have hreach := (Draft.Reachable.ofText.goesThrough hrun).2
  obtain ⟨s, hs, hlaid⟩ := Draft.exists_build_areLaidOut options hreach.source_eq fun a ha =>
    (h.isBuiltIn (Mark.mem_of_mem_accepted ha).1).isSound (Mark.mem_of_mem_accepted ha).2
  refine ⟨front, s, hfront, by rw [tokenizeWith, hrun]; exact hs, ?_⟩
  have hiff := not_congr ((h.exists_literal_iff hreach hlaid).trans h.exists_isFree_iff)
  simpa [hrow.buffer_eq] using hiff

/-- A combining mark behind a tab is left as a literal space, without the word that it was. -/
theorem isBlank_literal_combiningMark :
    (tokenizeWith .standard Pass.withSpacePlaceholders ['a', '\t', '\u0301', 'b']).map
        (fun s => s.tokens.map Token.rightSpace) =
      .ok [none, some (.literal ['\u0301']), none] ∧ isBlank ['\u0301'] = false :=
  ⟨by cbv, by decide⟩

end MarkupTransfer
