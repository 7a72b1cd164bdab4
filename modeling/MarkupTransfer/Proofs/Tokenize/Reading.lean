import Mathlib.Data.List.Basic
import MarkupTransfer.Proofs.Draft.Division
import MarkupTransfer.Proofs.Markup.Grammar
import MarkupTransfer.Proofs.Markup.Reference
/-!
# What the standard passes make of a text

Whatever the text, the passes in front of the words leave a row of cells that show one character
each: a blank for a tag, a tab or a line feed, the character that it stands for for a reference, and
any other character for itself. The last pass groups the cells into segments and marks those that
are not blank. No edit is turned down.

* `Markup.shown`: the text that words are read from.
* `Draft.exists_isRow_cells`: the row of cells that words are read from.
* `Draft.exists_isRead`: what the standard passes make of any text.
* `Markup.exists_isDivided`: a tag divides the text at every pass.
-/

namespace MarkupTransfer

open Cell (plain raws showns)
open Text (size Occurrence)

namespace Markup

/-- A blank takes the place of every token. -/
def blankOut (_ : Text) : Treatment := .edit (some [' '])

/-- The character that it stands for takes the place of a reference, if there is one. -/
def decodeToken (t : Text) : Treatment :=
  match decodeReference? t with
  | some c => .edit (some [c])
  | none => .leave

/-- The stretches that the pass over tags keeps to. -/
def tagStretches (t : Text) : List Stretch := Stretch.divide tagLength blankOut (t.map plain)

/-- The stretches that the pass over tabs and line feeds keeps to. -/
def blankStretches (t : Text) : List Stretch :=
  Stretch.divide blankTagLength blankOut ((tagStretches t).flatMap Stretch.results)

/-- The stretches that the pass over references keeps to. -/
def referenceStretches (t : Text) : List Stretch :=
  Stretch.divide referenceLength decodeToken ((blankStretches t).flatMap Stretch.results)

/-- The row that the pass over references leaves. -/
def decodedRow (cs : List Cell) : List Cell :=
  (Stretch.divide referenceLength decodeToken cs).flatMap Stretch.results

/-- The cells that words are made of. -/
def cells (t : Text) : List Cell := (referenceStretches t).flatMap Stretch.results

/-- The cells that words are made of if tabs and line feeds are kept as words: no blank takes their
place. -/
def cellsWithBlanks (t : Text) : List Cell := decodedRow ((tagStretches t).flatMap Stretch.results)

/-- The text that words are read from: with a blank in the place of every tag, then of every tab and
line feed, and then with references decoded. -/
def shown (t : Text) : Text :=
  Text.rewrite referenceLength (fun r => (decodeReference? r).elim r fun c => [c])
    (Text.rewrite blankTagLength (fun _ => [' ']) (Text.rewrite tagLength (fun _ => [' ']) t))

/-! ## The row of cells -/

theorem isSingle_blankOut (t : Text) : (blankOut t).IsSingle := .inr ⟨' ', rfl⟩

theorem isSingle_decodeToken (t : Text) : (decodeToken t).IsSingle := by
  rw [decodeToken]
  split
  · exact .inr ⟨_, rfl⟩
  · exact .inl rfl

theorem shown_decodeToken (t : Text) :
    (decodeToken t).shown t = (decodeReference? t).elim t fun c => [c] := by
  rw [decodeToken]
  cases decodeReference? t <;> rfl

theorem isGlyph_tagStretches (t : Text) :
    ∀ c ∈ (tagStretches t).flatMap Stretch.results, c.IsGlyph :=
  Stretch.isGlyph_results_divide isSingle_blankOut (Cell.isGlyph_of_mem_map_plain t)

theorem isGlyph_blankStretches (t : Text) :
    ∀ c ∈ (blankStretches t).flatMap Stretch.results, c.IsGlyph :=
  Stretch.isGlyph_results_divide isSingle_blankOut (isGlyph_tagStretches t)

theorem isGlyph_cells (t : Text) : ∀ c ∈ cells t, c.IsGlyph :=
  Stretch.isGlyph_results_divide isSingle_decodeToken (isGlyph_blankStretches t)

theorem isGlyph_cellsWithBlanks (t : Text) : ∀ c ∈ cellsWithBlanks t, c.IsGlyph :=
  Stretch.isGlyph_results_divide isSingle_decodeToken (isGlyph_tagStretches t)

/-- What the cells show is the text that words are read from. -/
theorem showns_cells (t : Text) : showns (cells t) = shown t := by
  have hdecode : (fun r => (decodeToken r).shown r) =
      fun r => (decodeReference? r).elim r fun c => [c] := funext shown_decodeToken
  rw [cells, referenceStretches, Stretch.showns_results_divide (isGlyph_blankStretches t), hdecode,
    blankStretches, Stretch.showns_results_divide (isGlyph_tagStretches t), tagStretches,
    Stretch.showns_results_divide (Cell.isGlyph_of_mem_map_plain t), Cell.showns_map_plain]
  rfl

theorem raws_cells (t : Text) : raws (cells t) = t := by
  rw [cells, Stretch.raws_flatMap_results, referenceStretches, Stretch.flatMap_cells_divide,
    Stretch.raws_flatMap_results, blankStretches, Stretch.flatMap_cells_divide,
    Stretch.raws_flatMap_results, tagStretches, Stretch.flatMap_cells_divide, Cell.raws_map_plain]

theorem raws_cellsWithBlanks (t : Text) : raws (cellsWithBlanks t) = t := by
  rw [cellsWithBlanks, decodedRow, Stretch.raws_flatMap_results, Stretch.flatMap_cells_divide,
    Stretch.raws_flatMap_results, tagStretches, Stretch.flatMap_cells_divide, Cell.raws_map_plain]

/-! ## Where a tag divides a text -/

/-- A text that is divided by a tag at every pass: the stretches in front of the tag, and those that
the rest of the text has by itself. -/
structure IsDivided (t front tag rest : Text) (tags blanks references : List Stretch) : Prop where
  tagStretches_eq : tagStretches t =
    tags ++ ⟨tag.map plain, .edit (some [' '])⟩ :: tagStretches rest
  blankStretches_eq : blankStretches t =
    blanks ++ ⟨[⟨tag, [' ']⟩], .leave⟩ :: blankStretches rest
  referenceStretches_eq : referenceStretches t =
    references ++ ⟨[⟨tag, [' ']⟩], .leave⟩ :: referenceStretches rest
  raws_tags : raws (tags.flatMap Stretch.cells) = front
  raws_blanks : raws (blanks.flatMap Stretch.cells) = front
  raws_references : raws (references.flatMap Stretch.cells) = front

/-- **A tag divides the text at every pass.** -/
theorem exists_isDivided {t : Text} {o : Occurrence} (ho : o ∈ tags t) :
    ∃ front rest ts bs rs, t = front ++ o.text ++ rest ∧ o.start = size front ∧ o.text ≠ [] ∧
      tagLength (o.text ++ rest) = o.text.length ∧ IsDivided t front o.text rest ts bs rs := by
  obtain ⟨front, rest, ts, ht, hstart, hpos, htake, htags, hfront⟩ :=
    Stretch.exists_of_mem_scanFrom blankOut ho
  have hlength : tagLength (o.text ++ rest) = o.text.length := by
    have hle := tagLength_le (o.text ++ rest)
    have hcut := congrArg List.length htake
    rw [List.length_take] at hcut
    omega
  have hne : o.text ≠ [] := fun hnil => by
    rw [hlength, hnil, List.length_nil] at hpos
    exact Nat.lt_irrefl 0 hpos
  have hrow₁ : (tagStretches t).flatMap Stretch.results = ts.flatMap Stretch.results ++
      ⟨o.text, [' ']⟩ :: (tagStretches rest).flatMap Stretch.results := by
    rw [tagStretches, htags]
    simp [Stretch.results, blankOut, tagStretches]
  obtain ⟨bs, hblanks, hbs⟩ := Stretch.exists_divide_append (x := ⟨o.text, [' ']⟩) rfl
    (fun c hc => isGlyph_tagStretches t c (by rw [hrow₁]; exact List.mem_append_left _ hc))
    blankTagLength_append_le ((tagStretches rest).flatMap Stretch.results)
  rw [← hrow₁] at hblanks
  have hrow₂ : (blankStretches t).flatMap Stretch.results = bs.flatMap Stretch.results ++
      ⟨o.text, [' ']⟩ :: (blankStretches rest).flatMap Stretch.results := by
    rw [blankStretches, hblanks]
    simp [Stretch.results, blankStretches]
  obtain ⟨rs, hreferences, hrs⟩ := Stretch.exists_divide_append (x := ⟨o.text, [' ']⟩) rfl
    (fun c hc => isGlyph_blankStretches t c (by rw [hrow₂]; exact List.mem_append_left _ hc))
    referenceLength_append_le ((blankStretches rest).flatMap Stretch.results)
  rw [← hrow₂] at hreferences
  have hraws : raws (ts.flatMap Stretch.cells) = front := by rw [hfront, Cell.raws_map_plain]
  have hraws' : raws (bs.flatMap Stretch.cells) = front := by
    rw [hbs, Stretch.raws_flatMap_results, hraws]
  exact ⟨front, rest, ts, bs, rs, ht, by rw [hstart, Nat.zero_add], hne, hlength, htags, hblanks,
    hreferences, hraws, hraws', by rw [hrs, Stretch.raws_flatMap_results, hraws']⟩

/-- A tag is one of the cells that words are made of if tabs and line feeds are kept as words. -/
theorem exists_cellsWithBlanks_eq {t : Text} {o : Occurrence} (ho : o ∈ tags t) :
    ∃ front back, cellsWithBlanks t = front ++ ⟨o.text, [' ']⟩ :: back ∧
      o.start = size (raws front) := by
  obtain ⟨source, rest, ts, _, _, -, hstart, -, -, h⟩ := exists_isDivided ho
  have hrow : (tagStretches t).flatMap Stretch.results = ts.flatMap Stretch.results ++
      ⟨o.text, [' ']⟩ :: (tagStretches rest).flatMap Stretch.results := by
    rw [h.tagStretches_eq]
    simp [Stretch.results]
  obtain ⟨rs, hreferences, hrs⟩ := Stretch.exists_divide_append (x := ⟨o.text, [' ']⟩) rfl
    (fun c hc => isGlyph_tagStretches t c (by rw [hrow]; exact List.mem_append_left _ hc))
    referenceLength_append_le ((tagStretches rest).flatMap Stretch.results)
  refine ⟨rs.flatMap Stretch.results,
    decodedRow ((tagStretches rest).flatMap Stretch.results), ?_, ?_⟩
  · rw [cellsWithBlanks, decodedRow, hrow, hreferences, List.flatMap_append, List.flatMap_cons]
    rfl
  · rw [hstart, Stretch.raws_flatMap_results, hrs, Stretch.raws_flatMap_results, h.raws_tags]

/-- The cells of a text that is divided by a tag: the tag is one of them, and behind it stand the
cells that the rest has by itself. -/
theorem IsDivided.cells_eq {t front tag rest : Text} {ts bs rs : List Stretch}
    (h : IsDivided t front tag rest ts bs rs) :
    cells t = rs.flatMap Stretch.results ++ ⟨tag, [' ']⟩ :: cells rest ∧
      raws (rs.flatMap Stretch.results) = front := by
  constructor
  · rw [cells, h.referenceStretches_eq]
    simp [Stretch.results, cells]
  · rw [Stretch.raws_flatMap_results, h.raws_references]

end Markup

/-! ## All passes -/

open Markup (tagStretches blankStretches referenceStretches)

/-- A draft of a text as the standard passes leave it. The groups of cells show the segments of the
text that words are read from. -/
structure Draft.IsRead (d : Draft) (t : Text) (groups : List (List Cell)) : Prop where
  source_eq : d.source = some t
  flatten_eq : groups.flatten = Markup.cells t
  showns_eq : groups.map showns = Text.segments (Markup.shown t)
  marks_eq : d.marks =
    Stretch.marks (some .xmlTag) raws 0 (tagStretches t) ++
    Stretch.marks (some .whitespaceTag) raws 0 (blankStretches t) ++
    Stretch.marks none raws 0 (referenceStretches t) ++
    Stretch.marks (some .word) raws 0 (groups.map Stretch.ofGroup)

namespace Pass

theorem edits_xmlTags (t : Text) : xmlTags.edits t = (Text.scan Markup.tagLength t).filterMap
    (Stretch.editOf (some .xmlTag) Markup.blankOut) := by
  have hedit : Stretch.editOf (some .xmlTag) Markup.blankOut =
      some ∘ tokenEdit .xmlTag (some [' ']) := rfl
  rw [hedit, List.filterMap_eq_map]
  rfl

theorem edits_whitespaceTags (t : Text) :
    whitespaceTags.edits t = (Text.scan Markup.blankTagLength t).filterMap
      (Stretch.editOf (some .whitespaceTag) Markup.blankOut) := by
  have hedit : Stretch.editOf (some .whitespaceTag) Markup.blankOut =
      some ∘ tokenEdit .whitespaceTag (some [' ']) := rfl
  rw [hedit, List.filterMap_eq_map]
  rfl

theorem edits_entities (t : Text) : entities.edits t =
    (Text.scan Markup.referenceLength t).filterMap
      (Stretch.editOf none Markup.decodeToken) := by
  refine List.filterMap_congr fun o _ => ?_
  rw [Stretch.editOf, Markup.decodeToken]
  cases Markup.decodeReference? o.text <;> rfl

end Pass

/-- A row of passes can be run in two parts. -/
theorem Draft.runAll_append {d d' : Draft} {front : List Pass} (h : d.runAll front = .ok d')
    (back : List Pass) : d.runAll (front ++ back) = d'.runAll back := by
  induction front generalizing d with
  | nil =>
    obtain rfl := Except.ok.inj h
    rfl
  | cons p front ih =>
    rw [runAll] at h
    rw [List.cons_append, runAll]
    split at h
    · next d₁ hd₁ => simpa only [hd₁] using ih h
    · cases h

/-- The passes in front of the words leave a row of cells that shows the text that words are read
from. -/
theorem Draft.exists_isRow_cells (t : Text) :
    ∃ d, (Draft.ofText t).runAll [.xmlTags, .whitespaceTags, .entities] = .ok d ∧
      d.IsRow (Markup.cells t) ∧
      d.marks =
        Stretch.marks (some .xmlTag) raws 0 (tagStretches t) ++
        Stretch.marks (some .whitespaceTag) raws 0 (blankStretches t) ++
        Stretch.marks none raws 0 (referenceStretches t) := by
  obtain ⟨d₁, hrun₁, hrow₁, hmarks₁⟩ := (IsRow.ofText t).run_divide
    (Cell.isGlyph_of_mem_map_plain t) (fun r => (Markup.isSingle_blankOut r).ne) Pass.edits_xmlTags
  obtain ⟨d₂, hrun₂, hrow₂, hmarks₂⟩ := hrow₁.run_divide
    (Markup.isGlyph_tagStretches t) (fun r => (Markup.isSingle_blankOut r).ne)
    Pass.edits_whitespaceTags
  obtain ⟨d₃, hrun₃, hrow₃, hmarks₃⟩ := hrow₂.run_divide
    (Markup.isGlyph_blankStretches t) (fun r => (Markup.isSingle_decodeToken r).ne)
    Pass.edits_entities
  refine ⟨d₃, by simp only [Draft.runAll, hrun₁, hrun₂, hrun₃], hrow₃, ?_⟩
  rw [hmarks₃, hmarks₂, hmarks₁]
  rfl

/-- **What the standard passes make of any text.** -/
theorem Draft.exists_isRead (t : Text) :
    ∃ d groups, (Draft.ofText t).runAll Pass.standard = .ok d ∧ d.IsRead t groups := by
  obtain ⟨d, hrun, hrow, hmarks⟩ := exists_isRow_cells t
  obtain ⟨d', groups, hrun', hflatten, hshowns, hrow', hmarks'⟩ :=
    hrow.run_words (Markup.isGlyph_cells t)
  refine ⟨d', groups, ?_, ?_, hflatten, by rw [hshowns, Markup.showns_cells], ?_⟩
  · have happend : Pass.standard = [.xmlTags, .whitespaceTags, .entities] ++ [.words] := rfl
    rw [happend, runAll_append hrun]
    simp only [runAll, hrun']
  · rw [hrow'.source_eq]
    exact congrArg some (Markup.raws_cells t)
  · rw [hmarks', hmarks]

end MarkupTransfer
