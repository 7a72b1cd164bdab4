import Mathlib
import MarkupTransfer.Proofs.Draft.Rendering
import MarkupTransfer.Proofs.Text.Segment
import MarkupTransfer.Proofs.Tokenize.Reading
/-!
# Which tags are kept

A tag is blanked so that words split around it. By the rules for words a blank goes with the spaces
on its two sides, and also with a combining mark, a format character or a joiner behind them. Then
it is part of a word, and the word, which is marked later than the tag, takes the tag's place.

* `Markup.exists_xml_eq`: what is found as a tag can be read as one.
* `IsRead.isSound`: every accepted mark of a text becomes a token.
* `IsRead.exists_group_of_tag`: the group of cells that a tag is in, and when it is a word.
* `IsRead.tag_accepted_iff`: a tag is accepted just if nothing is attached behind it.
* `exists_tokenize_eq`: every text is tokenized.
* `xmlTexts_tokenize`: which of its tags the sentence has.
-/

namespace MarkupTransfer

open Cell (plain raws showns)
open Markup (tagStretches blankStretches)
open Text (size slice Occurrence)

namespace Markup

/-- The mark of a tag. -/
def tagMark (o : Occurrence) : Mark := ⟨o.start, o.stop, o.text, some [' '], some .xmlTag⟩

theorem marks_tagStretches (t : Text) :
    Stretch.marks (some .xmlTag) raws 0 (tagStretches t) = (tags t).map tagMark := by
  have hmark : Stretch.markOf (some .xmlTag) blankOut = some ∘ tagMark := rfl
  rw [tagStretches, Stretch.marks_divide_plain, hmark, List.filterMap_eq_map]
  rfl

theorem tags_pairwise (t : Text) : (tags t).Pairwise fun o o' => o.stop ≤ o'.start := by
  have h := Stretch.marks_pairwise (some .xmlTag) 0 (tagStretches t)
  rw [marks_tagStretches] at h
  exact List.pairwise_map.mp h

theorem text_tagMark {t : Text} {o : Occurrence} (ho : o ∈ tags t) :
    Accepted.text t ⟨tagMark o, .xmlTag⟩ = o.text := by
  obtain ⟨front, rest, -, -, -, ht, hstart, -⟩ := exists_isDivided ho
  have hslice := Text.slice_size front o.text rest
  rw [← ht, ← hstart] at hslice
  exact hslice

/-- **What is found as a tag can be read as one**, though by other rules. -/
theorem exists_xml_eq {t : Text} {o : Occurrence} (ho : o ∈ tags t) (left right : Option Space)
    (position : Nat) : ∃ tag, Tag.xml o.text left right position = .ok tag := by
  obtain ⟨-, rest, -, -, -, -, -, hne, hlength, -⟩ := exists_isDivided ho
  have hread := isSome_read? hlength hne
  unfold Tag.xml
  cases hr : Tag.read? o.text with
  | none => simp [hr] at hread
  | some r => exact ⟨_, rfl⟩

/-- What the pass over tabs and line feeds goes by: copied characters, and blanks. -/
theorem eq_plain_or_blank {t : Text} {c : Cell}
    (hc : c ∈ (tagStretches t).flatMap Stretch.results) : (∃ d, c = plain d) ∨ c.shown = [' '] := by
  obtain ⟨g, hg, hc⟩ := List.mem_flatMap.mp hc
  rcases Stretch.mem_divide_cases hg with hleave | ⟨_, _, _, -, -, rfl⟩
  · have hcells : c ∈ (tagStretches t).flatMap Stretch.cells := by
      refine List.mem_flatMap.mpr ⟨g, hg, ?_⟩
      simpa only [Stretch.results, hleave] using hc
    rw [tagStretches, Stretch.flatMap_cells_divide] at hcells
    obtain ⟨d, -, rfl⟩ := List.mem_map.mp hcells
    exact .inl ⟨d, rfl⟩
  · rw [List.mem_singleton.mp hc]
    exact .inr rfl

/-- The pass over tabs and line feeds edits these characters, one at a time. -/
theorem eq_of_mem_blankStretches {t : Text} {ms : List Cell} {r : Option Text}
    (hg : ⟨ms, .edit r⟩ ∈ blankStretches t) :
    r = some [' '] ∧ ∃ c, isBlankTag c = true ∧ ms = [plain c] := by
  rcases Stretch.mem_divide_cases hg with hleave | ⟨c, rest, n, hc, hlength, hcells⟩
  · cases hleave
  obtain ⟨rfl, hr⟩ := Stretch.mk.inj hcells
  refine ⟨Treatment.edit.inj hr, ?_⟩
  rcases eq_plain_or_blank (hc.subset List.mem_cons_self) with ⟨d, rfl⟩ | hshown
  · simp only [Cell.showns_cons, plain, List.singleton_append, blankTagLength] at hlength
    split at hlength
    · next hd =>
      obtain rfl : n = 0 := by omega
      exact ⟨d, hd, rfl⟩
    · cases hlength
  · rw [Cell.showns_cons, hshown] at hlength
    cases hlength

/-- A mark of the pass over tabs and line feeds stands for a character of the source. -/
theorem exists_of_mem_marks_blankStretches {t : Text} {m : Mark}
    (hm : m ∈ Stretch.marks (some .whitespaceTag) raws 0 (blankStretches t)) :
    ∃ front c back, t = front ++ [c] ++ back ∧
      m = ⟨size front, size front + size [c], [c], some [' '], some .whitespaceTag⟩ := by
  obtain ⟨front, cells, r, back, hstretches, rfl⟩ := Stretch.exists_of_mem_marks hm
  have hraws : raws ((blankStretches t).flatMap Stretch.cells) = t := by
    rw [blankStretches, Stretch.flatMap_cells_divide, Stretch.raws_flatMap_results, tagStretches,
      Stretch.flatMap_cells_divide, Cell.raws_map_plain]
  have hg : ⟨cells, .edit r⟩ ∈ blankStretches t := by simp [hstretches]
  obtain ⟨rfl, c, -, rfl⟩ := eq_of_mem_blankStretches hg
  rw [hstretches] at hraws
  refine ⟨raws (front.flatMap Stretch.cells), c, raws (back.flatMap Stretch.cells), ?_, ?_⟩
  · rw [← hraws]
    simp [plain]
  · simp [plain]

end Markup

open Markup (tagMark)

/-! ## What marks stand for -/

/-- What the built-in passes leave as marks: tags, single characters kept as tags, words, and
replacements that make no token. -/
inductive Mark.IsBuiltIn (t : Text) (m : Mark) : Prop
  | tag (o : Occurrence) : o ∈ Markup.tags t → m = tagMark o → IsBuiltIn t m
  | blank (c : Char) : m.role = some .whitespaceTag → t.slice m.start m.stop = [c] → IsBuiltIn t m
  | word : m.role = some .word → IsBuiltIn t m
  | replaced : m.role = none → IsBuiltIn t m

namespace Mark.IsBuiltIn

variable {t : Text} {m : Mark}

theorem exists_tag (h : m.IsBuiltIn t) (hrole : m.role = some .xmlTag) :
    ∃ o ∈ Markup.tags t, Accepted.text t ⟨m, .xmlTag⟩ = o.text := by
  cases h with
  | tag o ho heq =>
    obtain rfl := heq
    exact ⟨o, ho, Markup.text_tagMark ho⟩
  | blank c h _ => exact nomatch hrole.symm.trans h
  | word h => exact nomatch hrole.symm.trans h
  | replaced h => exact nomatch hrole.symm.trans h

theorem exists_blank (h : m.IsBuiltIn t) (hrole : m.role = some .whitespaceTag) :
    ∃ c, Accepted.text t ⟨m, .whitespaceTag⟩ = [c] := by
  cases h with
  | tag o _ heq =>
    obtain rfl := heq
    exact nomatch hrole
  | blank c _ htext => exact ⟨c, htext⟩
  | word h => exact nomatch hrole.symm.trans h
  | replaced h => exact nomatch hrole.symm.trans h

/-- **A mark that the built-in passes leave becomes a token**, if it asks for one. -/
theorem isSound (h : m.IsBuiltIn t) {role : Role} (hrole : m.role = some role) :
    Accepted.IsSound t ⟨m, role⟩ := by
  intro left right count
  cases role with
  | word => exact ⟨_, rfl⟩
  | xmlTag =>
    obtain ⟨o, ho, htext⟩ := h.exists_tag hrole
    obtain ⟨tag, htag⟩ := Markup.exists_xml_eq ho left right count
    exact ⟨_, by rw [htext, Role.token, htag]; rfl⟩
  | whitespaceTag =>
    obtain ⟨c, htext⟩ := h.exists_blank hrole
    exact ⟨_, by rw [htext, Role.token, Tag.whitespace]; rfl⟩

end Mark.IsBuiltIn

namespace Draft.IsRead

variable {d : Draft} {t : Text} {groups : List (List Cell)}

/-- What a mark that asks for a token stands for. -/
theorem mem_marks_cases (h : d.IsRead t groups) {m : Mark} (hm : m ∈ d.marks)
    (hrole : m.role.isSome) :
    (∃ o ∈ Markup.tags t, m = tagMark o) ∨
      m ∈ Stretch.marks (some .whitespaceTag) raws 0 (blankStretches t) ∨
      m ∈ Stretch.marks (some .word) raws 0 (groups.map Stretch.ofGroup) := by
  rw [h.marks_eq, Markup.marks_tagStretches] at hm
  rcases List.mem_append.mp hm with hm | hm
  · rcases List.mem_append.mp hm with hm | hm
    · rcases List.mem_append.mp hm with hm | hm
      · obtain ⟨o, ho, rfl⟩ := List.mem_map.mp hm
        exact .inl ⟨o, ho, rfl⟩
      · exact .inr (.inl hm)
    · rw [Stretch.role_of_mem_marks hm] at hrole
      cases hrole
  · exact .inr (.inr hm)

theorem tagMark_mem (h : d.IsRead t groups) {o : Occurrence} (ho : o ∈ Markup.tags t) :
    tagMark o ∈ d.marks := by
  have := List.mem_map_of_mem (f := tagMark) ho
  simp [h.marks_eq, Markup.marks_tagStretches, this]

theorem start_lt_stop_of_tag {o : Occurrence} (ho : o ∈ Markup.tags t) : o.start < o.stop := by
  obtain ⟨-, -, -, -, -, -, -, hne, -, -⟩ := Markup.exists_isDivided ho
  have := Text.size_pos hne
  rw [Occurrence.stop]
  omega

theorem start_lt_stop_of_word (h : d.IsRead t groups) {m : Mark}
    (hm : m ∈ Stretch.marks (some .word) raws 0 (groups.map Stretch.ofGroup)) :
    m.start < m.stop := by
  obtain ⟨front, group, back, hgroups, hg, rfl⟩ := Stretch.mem_marks_ofGroup.mp hm
  have hne : group ≠ [] := by
    rintro rfl
    cases hg
  have hglyphs : ∀ c ∈ group, c.IsGlyph := fun c hc =>
    Markup.isGlyph_cells t c (by simp [← h.flatten_eq, hgroups, hc])
  have := Text.size_pos (Cell.raws_ne_nil hglyphs hne)
  simp only
  omega

theorem start_lt_stop (h : d.IsRead t groups) {m : Mark} (hm : m ∈ d.marks)
    (hrole : m.role.isSome) : m.start < m.stop := by
  rcases h.mem_marks_cases hm hrole with ⟨o, ho, rfl⟩ | hblank | hword
  · exact start_lt_stop_of_tag ho
  · obtain ⟨front, c, back, -, rfl⟩ := Markup.exists_of_mem_marks_blankStretches hblank
    have := Text.size_pos (List.cons_ne_nil c [])
    simp only
    omega
  · exact h.start_lt_stop_of_word hword

/-- **Every word is accepted**: words are marked last. -/
theorem word_accepted (h : d.IsRead t groups) {m : Mark}
    (hm : m ∈ Stretch.marks (some .word) raws 0 (groups.map Stretch.ofGroup)) :
    ⟨m, .word⟩ ∈ Mark.accepted d.marks := by
  rw [Mark.mem_accepted, h.marks_eq]
  exact Mark.mem_acceptAll_append hm (Stretch.role_of_mem_marks hm)
    (fun m hm => h.start_lt_stop_of_word hm) (Stretch.marks_pairwise _ 0 _)

theorem isBuiltIn (h : d.IsRead t groups) {m : Mark} (hm : m ∈ d.marks) : m.IsBuiltIn t := by
  cases hrole : m.role with
  | none => exact .replaced hrole
  | some role =>
    rcases h.mem_marks_cases hm (by simp [hrole]) with ⟨o, ho, rfl⟩ | hblank | hword
    · exact .tag o ho rfl
    · obtain ⟨front, c, back, ht, rfl⟩ := Markup.exists_of_mem_marks_blankStretches hblank
      exact .blank c rfl (by rw [ht]; exact Text.slice_size front [c] back)
    · exact .word (Stretch.role_of_mem_marks hword)

/-- **Every accepted mark becomes a token.** -/
theorem isSound (h : d.IsRead t groups) {a : Accepted} (ha : a ∈ Mark.accepted d.marks) :
    a.IsSound t := by
  obtain ⟨hm, hrole⟩ := Mark.mem_of_mem_accepted ha
  exact (h.isBuiltIn hm).isSound hrole

/-! ## The group of a tag -/

/-- **A tag is one of the cells of a group**, and the group is a word just if something is attached
behind the tag. -/
theorem exists_group_of_tag (h : d.IsRead t groups) {o : Occurrence} (ho : o ∈ Markup.tags t) :
    ∃ front before behind back, groups = front ++ (before ++ ⟨o.text, [' ']⟩ :: behind) :: back ∧
      o.start = size (raws (front.flatten ++ before)) ∧
      (Text.isBlank (showns (before ++ ⟨o.text, [' ']⟩ :: behind)) = true ↔
        Text.attaches (Markup.shown (t.after o.stop)) = false) := by
  obtain ⟨source, rest, _, _, rs, ht, hstart, -, -, hdivided⟩ := Markup.exists_isDivided ho
  have hafter : t.after o.stop = rest := by
    rw [Occurrence.stop, hstart, ht, ← Text.size_append, Text.after_append_size]
  obtain ⟨hcells, hraws⟩ := hdivided.cells_eq
  generalize rs.flatMap Stretch.results = as at hcells hraws
  have hglyphs := Markup.isGlyph_cells t
  obtain ⟨texts, u, v, others, hsegments, hu, hblank⟩ :=
    Text.exists_segment_of_space (showns as) (Markup.shown rest)
  have hshown : Markup.shown t = showns as ++ ' ' :: Markup.shown rest := by
    rw [← Markup.showns_cells t, hcells, ← Markup.showns_cells rest]
    simp
  have hgroups := h.showns_eq
  rw [hshown, hsegments] at hgroups
  obtain ⟨front, tail, rfl, hfront, htail⟩ := List.map_eq_append_iff.mp hgroups
  obtain ⟨group, back, rfl, hgroup, -⟩ := List.map_eq_cons_iff.mp htail
  have hflatten := h.flatten_eq
  have hin : ∀ c ∈ group, c.IsGlyph := fun c hc => hglyphs c (by rw [← hflatten]; simp [hc])
  obtain ⟨before, tail, rfl, hbefore, hbehind⟩ := Cell.exists_append_of_showns_eq hin hgroup
  have hrow : front.flatten ++ before ++ (tail ++ back.flatten) =
      as ++ ⟨o.text, [' ']⟩ :: Markup.cells rest := by
    rw [← hcells, ← hflatten]
    simp
  obtain ⟨rfl, hcons⟩ := Cell.append_inj_of_showns_eq (by rwa [hrow, ← hcells]) hrow
    (by rw [Cell.showns_append, Cell.showns_flatten, hfront, hbefore, hu])
  cases tail with
  | nil => cases hbehind
  | cons c behind =>
    obtain ⟨rfl, -⟩ := List.cons.inj hcons
    refine ⟨front, before, behind, back, rfl, by rw [hstart, hraws], ?_⟩
    rw [hgroup, hblank, hafter]

/-! ## Accepted tags -/

/-- A tag with nothing attached behind it is met by no other mark that asks for a token. -/
theorem eq_tagMark_of_meets (h : d.IsRead t groups) {o : Occurrence} (ho : o ∈ Markup.tags t)
    (hleft : Text.attaches (Markup.shown (t.after o.stop)) = false) {m : Mark} (hm : m ∈ d.marks)
    (hrole : m.role.isSome) (hmeets : (tagMark o).range.Meets m.range) : tagMark o = m := by
  obtain ⟨front, before, behind, back, hgroups, hstart, hblank⟩ := h.exists_group_of_tag ho
  simp only [Cell.raws_append, Text.size_append] at hstart
  have hmeets' := hmeets
  simp only [Range.Meets, Mark.range, tagMark, Occurrence.stop] at hmeets'
  rcases h.mem_marks_cases hm hrole with ⟨o', ho', rfl⟩ | hm | hm
  · exact Mark.eq_of_meets_of_pairwise (List.pairwise_map.mpr (Markup.tags_pairwise t))
      (List.mem_map_of_mem ho) (List.mem_map_of_mem ho') hmeets
  · obtain ⟨source, _, _, bs, _, -, hsource, -, -, hdivided⟩ := Markup.exists_isDivided ho
    rw [hdivided.blankStretches_eq] at hm
    have hapart := Stretch.apart_of_mem_marks hm
    rw [hdivided.raws_blanks] at hapart
    simp only [Cell.raws_cons, Cell.raws_nil, List.append_nil] at hapart
    omega
  · have hgroup : Stretch.ofGroup (before ++ ⟨o.text, [' ']⟩ :: behind) =
        ⟨before ++ ⟨o.text, [' ']⟩ :: behind, .leave⟩ := by
      rw [Stretch.ofGroup, if_pos (hblank.mpr hleft)]
    rw [hgroups, List.map_append, List.map_cons, hgroup] at hm
    have hapart := Stretch.apart_of_mem_marks hm
    rw [Stretch.flatMap_cells_ofGroup] at hapart
    simp only [Cell.raws_append, Cell.raws_cons, Text.size_append] at hapart
    omega

/-- **A tag is accepted just if nothing is attached behind it.** -/
theorem tag_accepted_iff (h : d.IsRead t groups) {o : Occurrence} (ho : o ∈ Markup.tags t) :
    ⟨tagMark o, .xmlTag⟩ ∈ Mark.accepted d.marks ↔
      Text.attaches (Markup.shown (t.after o.stop)) = false := by
  have hcovers := start_lt_stop_of_tag ho
  constructor
  · intro haccepted
    obtain ⟨front, before, behind, back, hgroups, hstart, hblank⟩ := h.exists_group_of_tag ho
    rw [← hblank]
    by_contra hword
    have hmem := Stretch.mem_marks_ofGroup.mpr
      ⟨front, before ++ ⟨o.text, [' ']⟩ :: behind, back, hgroups, by simpa using hword, rfl⟩
    have hmeets : Range.Meets (tagMark o).range
        ⟨size (raws front.flatten), size (raws front.flatten) +
          size (raws (before ++ ⟨o.text, [' ']⟩ :: behind))⟩ := by
      simp only [Cell.raws_append, Cell.raws_cons, Text.size_append] at hstart ⊢
      simp only [Range.Meets, Mark.range, tagMark, Occurrence.stop] at hcovers ⊢
      omega
    have heq := Mark.eq_of_meets (Mark.mem_accepted.mp haccepted)
      (Mark.mem_accepted.mp (h.word_accepted hmem)) hmeets
    have hroles : Role.xmlTag = .word := congrArg Accepted.role heq
    cases hroles
  · intro hleft
    obtain ⟨⟨m, role⟩, ha, hmeets⟩ := Mark.exists_meets_of_mem (h.tagMark_mem ho) rfl hcovers
    obtain ⟨hm, hrole⟩ : m ∈ d.marks ∧ m.role = some role := Mark.mem_of_mem_acceptAll ha
    obtain rfl := h.eq_tagMark_of_meets ho hleft hm (by simp [hrole]) hmeets
    obtain rfl : .xmlTag = role := Option.some.inj hrole
    exact Mark.mem_accepted.mpr ha

/-- The marks accepted in a role are told by their members, in the order in which they begin. -/
theorem filter_accepted_eq (h : d.IsRead t groups) {role : Role} {as : List Accepted}
    (hascending : as.Pairwise fun a b => a.mark.start < b.mark.start)
    (hmem : ∀ a, a ∈ as ↔ a ∈ Mark.accepted d.marks ∧ a.role = role) :
    ((Mark.accepted d.marks).filter fun a => a.role = role) = as := by
  have hcovers : ∀ a ∈ Mark.accepted d.marks, a.mark.start < a.mark.stop := by
    intro a ha
    obtain ⟨hm, hrole⟩ := Mark.mem_of_mem_accepted ha
    exact h.start_lt_stop hm (by simp [hrole])
  have haccepted : (Mark.accepted d.marks).Pairwise fun a b => a.mark.start < b.mark.start :=
    (Mark.accepted_pairwise hcovers).imp_of_mem fun ha _ hle =>
      Nat.lt_of_lt_of_le (hcovers _ ha) hle
  have hirrefl : Std.Irrefl fun a b : Accepted => a.mark.start < b.mark.start :=
    ⟨fun _ => Nat.lt_irrefl _⟩
  have hantisymm : Std.Antisymm fun a b : Accepted => a.mark.start < b.mark.start :=
    ⟨fun _ _ hab hba => absurd hba (Nat.lt_asymm hab)⟩
  refine (haccepted.filter _).eq_of_mem_iff hascending fun a => ?_
  rw [hmem, List.mem_filter, decide_eq_true_eq]

/-- The marks accepted as markup are those of the tags with nothing attached behind them. -/
theorem filter_accepted (h : d.IsRead t groups) :
    ((Mark.accepted d.marks).filter fun a => a.role = .xmlTag) =
      ((Markup.tags t).filter fun o => !Text.attaches (Markup.shown (t.after o.stop))).map
        fun o => ⟨tagMark o, .xmlTag⟩ := by
  have hascending : (Markup.tags t).Pairwise fun o o' => o.start < o'.start :=
    (Markup.tags_pairwise t).imp_of_mem fun ho _ hle =>
      Nat.lt_of_lt_of_le (start_lt_stop_of_tag ho) hle
  refine h.filter_accepted_eq (List.pairwise_map.mpr (hascending.filter _)) fun a => ?_
  rw [List.mem_map]
  constructor
  · rintro ⟨o, ho, rfl⟩
    obtain ⟨ho, hkept⟩ := List.mem_filter.mp ho
    exact ⟨(h.tag_accepted_iff ho).mpr (by simpa using hkept), rfl⟩
  · rintro ⟨ha, hrole⟩
    obtain ⟨m, role⟩ := a
    obtain rfl : role = .xmlTag := hrole
    obtain ⟨hm, hmrole⟩ : m ∈ d.marks ∧ m.role = some .xmlTag :=
      Mark.mem_of_mem_accepted ha
    rcases h.mem_marks_cases hm (by simp [hmrole]) with ⟨o, ho, rfl⟩ | hm | hm
    · have := (h.tag_accepted_iff ho).mp ha
      exact ⟨o, List.mem_filter.mpr ⟨ho, by simp [this]⟩, rfl⟩
    · rw [Stretch.role_of_mem_marks hm] at hmrole
      cases hmrole
    · rw [Stretch.role_of_mem_marks hm] at hmrole
      cases hmrole

/-- **The marks accepted as words are all that were made.** -/
theorem filter_accepted_word (h : d.IsRead t groups) :
    ((Mark.accepted d.marks).filter fun a => a.role = .word) =
      (Stretch.marks (some .word) raws 0 (groups.map Stretch.ofGroup)).map fun m => ⟨m, .word⟩ := by
  have hascending : (Stretch.marks (some .word) raws 0 (groups.map Stretch.ofGroup)).Pairwise
      fun m n => m.start < n.start :=
    (Stretch.marks_pairwise _ 0 _).imp_of_mem fun hm _ hle =>
      Nat.lt_of_lt_of_le (h.start_lt_stop_of_word hm) hle
  refine h.filter_accepted_eq (List.pairwise_map.mpr hascending) fun a => ?_
  rw [List.mem_map]
  constructor
  · rintro ⟨m, hm, rfl⟩
    exact ⟨h.word_accepted hm, rfl⟩
  · rintro ⟨ha, hrole⟩
    obtain ⟨m, role⟩ := a
    obtain rfl : role = .word := hrole
    obtain ⟨hm, hmrole⟩ : m ∈ d.marks ∧ m.role = some .word :=
      Mark.mem_of_mem_accepted ha
    rcases h.mem_marks_cases hm (by simp [hmrole]) with ⟨o, ho, rfl⟩ | hblank | hword
    · cases hmrole
    · rw [Stretch.role_of_mem_marks hblank] at hmrole
      cases hmrole
    · exact ⟨m, hword, rfl⟩

end Draft.IsRead

/-- What the standard passes make of a text can be built. -/
theorem exists_tokenize_eq (t : Text) :
    ∃ (d : Draft) (groups : List (List Cell)) (s : Sentence),
      d.IsRead t groups ∧ d.build .standard = .ok s ∧ tokenize t = .ok s := by
  obtain ⟨d, groups, hrun, h⟩ := Draft.exists_isRead t
  obtain ⟨s, hs⟩ := Draft.exists_build_eq .standard h.source_eq fun a ha => h.isSound ha
  exact ⟨d, groups, s, h, hs, by rw [tokenize, tokenizeWith, hrun]; exact hs⟩

/-- **Every text is tokenized, and its sentence keeps, in their order, the tags with nothing
attached behind them.** The others are swallowed by words. -/
theorem xmlTexts_tokenize (t : Text) : ∃ s, tokenize t = .ok s ∧
    (s.tags.filter fun tag => tag.kind == .xml).map Tag.text =
      ((Markup.tags t).filter fun o => !Text.attaches (Markup.shown (t.after o.stop))).map
        Occurrence.text := by
  obtain ⟨d, groups, s, h, hs, htokenize⟩ := exists_tokenize_eq t
  refine ⟨s, htokenize, ?_⟩
  rw [Draft.xmlTexts_build h.source_eq rfl hs, h.filter_accepted, List.map_map]
  refine List.map_congr_left fun o ho => ?_
  exact Markup.text_tagMark (List.mem_filter.mp ho).1

/-- A tag in front of a combining mark is swallowed. -/
theorem xmlTexts_tokenize_combiningMark :
    (tokenize ['<', 'b', '>', '\u0301']).map
        (fun s => (s.tags.filter fun tag => tag.kind == .xml).map Tag.text) = .ok [] ∧
      (Markup.tags ['<', 'b', '>', '\u0301']).map Occurrence.text = [['<', 'b', '>']] :=
  ⟨by cbv, by decide⟩

end MarkupTransfer
