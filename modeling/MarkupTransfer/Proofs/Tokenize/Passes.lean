import MarkupTransfer.Proofs.Draft.Division
import MarkupTransfer.Proofs.Markup.Parts
/-!
# The standard passes on an escaped text

Each of the standard passes treats an escaped text part by part. The first three leave one cell of
every part, and the cell shows one character: a blank for a tag, a tab or a line feed, and the
character itself for any other. The last pass groups these characters into words.

* `Part.areScanned_markTag`, `Part.areScanned_markBlank`, `Part.areScanned_decode`: what each scan
  finds among parts.
* `Draft.runAll_standard`: the row of cells and the marks that the passes leave.
-/

namespace MarkupTransfer

open Cell (plain raws showns)
open Markup (escapeChar isBlankTag isSpecial)
open Text (size)

namespace Markup.Part

/-! ## Stretches -/

/-- The pass over tags: a tag is marked, and a blank takes its place. -/
def markTag : Part → Stretch
  | tag m => ⟨m.map plain, .edit (some [' '])⟩
  | char c => ⟨(escapeChar c).map plain, .leave⟩

/-- The pass over tabs and line feeds: each is marked, and a blank takes its place. -/
def markBlank : Part → Stretch
  | tag m => ⟨[⟨m, [' ']⟩], .leave⟩
  | char c => ⟨(escapeChar c).map plain, if isBlankTag c then .edit (some [' ']) else .leave⟩

/-- The pass over references: each is replaced by the character it stands for. -/
def decode : Part → Stretch
  | tag m => ⟨[⟨m, [' ']⟩], .leave⟩
  | char c =>
    if isBlankTag c then ⟨[⟨[c], [' ']⟩], .leave⟩
    else ⟨(escapeChar c).map plain, if isSpecial c then .edit (some [c]) else .leave⟩

/-- The character that a part shows once the passes in front of the words have been made. -/
def face : Part → Char
  | tag _ => ' '
  | char c => if isBlankTag c then ' ' else c

/-- What the passes in front of the words make of a part. -/
def cell (p : Part) : Cell := ⟨p.raw, [p.face]⟩

/-- The pass over words: parts that show a segment are marked, unless the segment is blank. -/
def markWord (group : List Part) : Stretch :=
  ⟨group.map cell, if Text.isBlank (group.map face) then .leave else .edit none⟩

theorem raws_map_cell (ps : List Part) : raws (ps.map cell) = source ps := by
  induction ps with
  | nil => rfl
  | cons p ps ih => simp [ih, cell]

theorem showns_map_cell (ps : List Part) : showns (ps.map cell) = ps.map face := by
  induction ps with
  | nil => rfl
  | cons p ps ih => simp [ih, cell]

theorem isSpecial_of_isBlankTag {c : Char} (h : isBlankTag c = true) : isSpecial c = false := by
  simp only [isBlankTag, Bool.or_eq_true, beq_iff_eq] at h
  rcases h with rfl | rfl <;> rfl

theorem escapeChar_of_isBlankTag {c : Char} (h : isBlankTag c = true) : escapeChar c = [c] :=
  escapeChar_of_not_isSpecial (isSpecial_of_isBlankTag h)

/-! ## One pass leads to the next -/

theorem flatMap_cells_markTag (ps : List Part) :
    (ps.map markTag).flatMap Stretch.cells = (source ps).map plain := by
  induction ps with
  | nil => rfl
  | cons p ps ih => cases p <;> simp [markTag, raw, ih]

theorem results_markTag (p : Part) : p.markTag.results = p.markBlank.cells := by
  cases p <;> simp [markTag, markBlank, Stretch.results]

theorem results_markBlank (p : Part) : p.markBlank.results = p.decode.cells := by
  cases p with
  | tag m => rfl
  | char c =>
    simp only [markBlank, decode]
    split
    · next h => simp [Stretch.results, escapeChar_of_isBlankTag h, plain]
    · simp [Stretch.results]

theorem results_decode (p : Part) : p.decode.results = [p.cell] := by
  cases p with
  | tag m => rfl
  | char c =>
    simp only [decode, cell, raw, face]
    split
    · next h => simp [Stretch.results, escapeChar_of_isBlankTag h]
    · split
      · simp [Stretch.results]
      · next h => simp [Stretch.results, escapeChar_of_not_isSpecial (by simpa using h), plain]

theorem flatMap_results_eq {f g : Part → Stretch} (h : ∀ p, (f p).results = (g p).cells)
    (ps : List Part) :
    (ps.map f).flatMap Stretch.results = (ps.map g).flatMap Stretch.cells := by
  induction ps with
  | nil => rfl
  | cons p ps ih => simp only [List.map_cons, List.flatMap_cons, h, ih]

theorem flatMap_results_decode (ps : List Part) :
    (ps.map decode).flatMap Stretch.results = ps.map cell := by
  induction ps with
  | nil => rfl
  | cons p ps ih =>
    simp only [List.map_cons, List.flatMap_cons, results_decode, ih, List.cons_append,
      List.nil_append]

/-- No pass takes text out. -/
theorem treatment_ne {α : Type} {f : α → Stretch} (h : ∀ a, (f a).treatment ≠ .edit (some []))
    {as : List α} : ∀ g ∈ as.map f, g.treatment ≠ .edit (some []) := by
  intro g hg
  obtain ⟨a, -, rfl⟩ := List.mem_map.mp hg
  exact h a

theorem treatment_markTag_ne (p : Part) : p.markTag.treatment ≠ .edit (some []) := by
  cases p <;> simp [markTag]

theorem treatment_markBlank_ne (p : Part) : p.markBlank.treatment ≠ .edit (some []) := by
  cases p with
  | tag m => simp [markBlank]
  | char c =>
    rw [markBlank]
    split <;> simp

theorem treatment_decode_ne (p : Part) : p.decode.treatment ≠ .edit (some []) := by
  cases p with
  | tag m => simp [decode]
  | char c =>
    rw [decode]
    split
    · simp
    · split <;> simp

theorem markWord_eq (group : List Part) : markWord group = .ofGroup (group.map cell) := by
  rw [markWord, Stretch.ofGroup, showns_map_cell]

theorem map_markWord (groups : List (List Part)) :
    groups.map markWord = (groups.map (List.map cell)).map Stretch.ofGroup := by
  rw [List.map_map]
  exact List.map_congr_left fun group _ => markWord_eq group

theorem treatment_markWord_ne (group : List Part) :
    (markWord group).treatment ≠ .edit (some []) := by
  rw [markWord_eq]
  exact Stretch.treatment_ofGroup_ne _

/-! ## What the scans find -/

/-- Nothing is found in a text none of whose characters can begin a token. -/
theorem lengthAt_eq_zero {lengthAt : Text → Nat} {t : Text}
    (h : ∀ c ∈ t, ∀ r, lengthAt (c :: r) = 0) (rest : Text) :
    ∀ s c r, t = s ++ c :: r → lengthAt (c :: r ++ rest) = 0 := by
  intro s c r ht
  exact h c (by simp [ht]) _

theorem areScanned_markTag {ps : List Part} (h : AreFound ps) :
    Stretch.AreScanned Markup.tagLength (fun o => some (Pass.tokenEdit .xmlTag (some [' ']) o))
      (some .xmlTag) (ps.map markTag) := by
  induction ps with
  | nil => trivial
  | cons p ps ih =>
    cases p with
    | tag m =>
      obtain ⟨hm, hlength, hps⟩ := h
      refine ⟨by simpa using hm, ?_, fun n => by simp [Pass.tokenEdit, Edit.token], ih hps⟩
      rw [flatMap_cells_markTag, Cell.showns_map_plain, Cell.showns_map_plain, hlength]
    | char c =>
      obtain ⟨hc, hps⟩ := h
      refine ⟨?_, ih hps⟩
      rw [flatMap_cells_markTag, Cell.showns_map_plain, Cell.showns_map_plain]
      exact tagLength_escapeChar hc

theorem isBlankTag_of_mem_escapeChar {c d : Char} (h : isBlankTag c = false)
    (hd : d ∈ escapeChar c) : isBlankTag d = false := by
  cases hc : isSpecial c with
  | false =>
    rw [escapeChar_of_not_isSpecial hc] at hd
    rw [List.mem_singleton.mp hd, h]
  | true =>
    revert d
    rcases isSpecial_cases hc with rfl | rfl | rfl <;> simp [escapeChar, isBlankTag]

theorem areScanned_markBlank (ps : List Part) :
    Stretch.AreScanned Markup.blankTagLength
      (fun o => some (Pass.tokenEdit .whitespaceTag (some [' ']) o)) (some .whitespaceTag)
      (ps.map markBlank) := by
  have hlength : ∀ {c : Char} {r : Text}, isBlankTag c = false →
      Markup.blankTagLength (c :: r) = 0 := fun hc => by simp [Markup.blankTagLength, hc]
  induction ps with
  | nil => trivial
  | cons p ps ih =>
    cases p with
    | tag m =>
      refine ⟨lengthAt_eq_zero (fun c hc r => hlength ?_) _, ih⟩
      obtain rfl : c = ' ' := by simpa using hc
      rfl
    | char c =>
      cases hc : isBlankTag c with
      | false =>
        simp only [List.map_cons, markBlank, hc]
        refine ⟨lengthAt_eq_zero (fun d hd r => hlength ?_) _, ih⟩
        exact isBlankTag_of_mem_escapeChar hc (by simpa using hd)
      | true =>
        simp only [List.map_cons, markBlank, hc, escapeChar_of_isBlankTag hc]
        exact ⟨by simp [plain], by simp [plain, Markup.blankTagLength, hc],
          fun n => by simp [Pass.tokenEdit, Edit.token], ih⟩

theorem areScanned_decode (ps : List Part) :
    Stretch.AreScanned Markup.referenceLength
      (fun o => (Markup.decodeReference? o.text).map fun c => .replace o.start o.text.size [c])
      none (ps.map decode) := by
  induction ps with
  | nil => trivial
  | cons p ps ih =>
    have hblank : ∀ cells : List Cell, showns cells = [' '] →
        ∀ s c r, showns cells = s ++ c :: r → Markup.referenceLength
          (c :: r ++ showns ((ps.map decode).flatMap Stretch.cells)) = 0 := by
      intro cells hcells
      refine lengthAt_eq_zero (fun c hc r => referenceLength_eq_zero ?_ r) _
      rw [hcells, List.mem_singleton] at hc
      rw [hc]
      decide
    cases p with
    | tag m => exact ⟨hblank _ rfl, ih⟩
    | char c =>
      cases hc : isBlankTag c with
      | true =>
        simp only [List.map_cons, decode, hc, if_true]
        exact ⟨hblank _ rfl, ih⟩
      | false =>
        cases hs : isSpecial c with
        | false =>
          simp only [List.map_cons, decode, hc, hs, escapeChar_of_not_isSpecial hs]
          refine ⟨lengthAt_eq_zero (fun d hd r => referenceLength_eq_zero ?_ r) _, ih⟩
          obtain rfl : d = c := by simpa [plain] using hd
          rintro rfl
          cases hs
        | true =>
          simp only [List.map_cons, decode, hc, hs]
          obtain ⟨hlength, hdecode⟩ := referenceLength_escapeChar hs
            (showns ((ps.map decode).flatMap Stretch.cells))
          refine ⟨by simpa using escapeChar_ne_nil c, by simpa using hlength,
            fun n => by simp [hdecode, Edit.replace], ih⟩

/-! ## Words -/

/-- Segments of what parts show are shown by groups of parts. -/
theorem exists_groups {segments : List Text} {ps : List Part}
    (h : ps.map face = segments.flatten) :
    ∃ groups : List (List Part), groups.flatten = ps ∧ groups.map (List.map face) = segments := by
  induction segments generalizing ps with
  | nil =>
    obtain rfl : ps = [] := List.map_eq_nil_iff.mp h
    exact ⟨[], rfl, rfl⟩
  | cons s segments ih =>
    obtain ⟨group, rest, rfl, hgroup, hrest⟩ := List.map_eq_append_iff.mp h
    obtain ⟨groups, rfl, hgroups⟩ := ih hrest
    exact ⟨group :: groups, rfl, by rw [List.map_cons, hgroup, hgroups]⟩

theorem edits_markWord (groups : List (List Part)) (n : Nat) :
    Stretch.edits (some .word) n (groups.map markWord) =
      ((Text.placed n (groups.map (List.map face))).filter fun s => !Text.isBlank s.2).map
        fun s => .token .word s.1 s.2.size none := by
  have hshowns : showns ∘ List.map cell = List.map face := funext showns_map_cell
  rw [map_markWord, Stretch.edits_ofGroup, List.map_map, hshowns]

theorem flatMap_cells_markWord (groups : List (List Part)) :
    (groups.map markWord).flatMap Stretch.cells = groups.flatten.map cell := by
  rw [map_markWord, Stretch.flatMap_cells_ofGroup, List.map_flatten]

end Markup.Part

/-! ## All passes -/

open Markup (Part)

/-- A draft as the standard passes leave it: the tags, the tabs and line feeds and the words are
marked where they stand. The references that were decoded are marked as well, but make no tokens. -/
structure Draft.IsTokenized (d : Draft) (ps : List Part) (groups : List (List Part)) : Prop where
  found : Part.AreFound ps
  source_eq : d.source = some (Part.source ps)
  flatten_eq : groups.flatten = ps
  marks_eq : d.marks =
    Stretch.marks (some .xmlTag) raws 0 (ps.map Part.markTag) ++
    Stretch.marks (some .whitespaceTag) raws 0 (ps.map Part.markBlank) ++
    Stretch.marks none raws 0 (ps.map Part.decode) ++
    Stretch.marks (some .word) raws 0 (groups.map Part.markWord)

/-- **What the standard passes make of an escaped text.** -/
theorem Draft.runAll_standard {ps : List Part} (h : Part.AreFound ps) :
    ∃ d groups, (Draft.ofText (Part.source ps)).runAll Pass.standard = .ok d ∧
      d.IsTokenized ps groups := by
  have hrow₀ : (Draft.ofText (Part.source ps)).IsRow
      ((ps.map Part.markTag).flatMap Stretch.cells) := by
    rw [Part.flatMap_cells_markTag]
    exact .ofText _
  obtain ⟨d₁, hrun₁, hrow₁, hmarks₁⟩ := hrow₀.run_eq_of_areScanned (p := .xmlTags)
    (Part.treatment_ne Part.treatment_markTag_ne) (Part.areScanned_markTag h)
    (fun t => by rw [List.filterMap_eq_map']; rfl)
  rw [Part.flatMap_results_eq Part.results_markTag] at hrow₁
  obtain ⟨d₂, hrun₂, hrow₂, hmarks₂⟩ := hrow₁.run_eq_of_areScanned (p := .whitespaceTags)
    (Part.treatment_ne Part.treatment_markBlank_ne) (Part.areScanned_markBlank ps)
    (fun t => by rw [List.filterMap_eq_map']; rfl)
  rw [Part.flatMap_results_eq Part.results_markBlank] at hrow₂
  obtain ⟨d₃, hrun₃, hrow₃, hmarks₃⟩ := hrow₂.run_eq_of_areScanned (p := .entities)
    (Part.treatment_ne Part.treatment_decode_ne) (Part.areScanned_decode ps) (fun t => rfl)
  rw [Part.flatMap_results_decode] at hrow₃
  have hsegments : ps.map Part.face = (Text.segments (ps.map Part.face)).flatten :=
    (Text.flatten_segments _).symm
  obtain ⟨groups, rfl, hgroups⟩ := Part.exists_groups hsegments
  have hbuffer : d₃.buffer = groups.flatten.map Part.face := by
    rw [hrow₃.buffer_eq, Part.showns_map_cell]
  rw [← Part.flatMap_cells_markWord] at hrow₃
  have hedits : Pass.words.edits d₃.buffer =
      Stretch.edits (some .word) 0 (groups.map Part.markWord) := by
    rw [Part.edits_markWord, hgroups, hbuffer]
    rfl
  obtain ⟨d₄, hrun₄, hrow₄, hmarks₄⟩ := hrow₃.run_eq
    (Part.treatment_ne Part.treatment_markWord_ne) hedits
  refine ⟨d₄, groups, ?_, h, ?_, rfl, ?_⟩
  · simp only [Pass.standard, Draft.runAll, hrun₁, hrun₂, hrun₃, hrun₄]
  · rw [hrow₄.source_eq, Stretch.raws_flatMap_results, Part.flatMap_cells_markWord,
      Part.raws_map_cell]
  · rw [hmarks₄, hmarks₃, hmarks₂, hmarks₁]
    rfl

end MarkupTransfer
