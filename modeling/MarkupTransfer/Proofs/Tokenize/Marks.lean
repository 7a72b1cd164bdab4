import MarkupTransfer.Proofs.Draft.Rendering
import MarkupTransfer.Proofs.Tokenize.Passes
/-!
# The marks of an escaped text

Once the standard passes have been made, every mark that can become a token stands for a tag, for a
tab or a line feed, or for a group of parts that shows a word. Where such a mark stands in the
source is given by the parts before it.

* `IsTokenized.mem_accepted_cases`: what an accepted mark stands for.
* `IsTokenized.word_accepted`: every word is accepted.
* `IsTokenized.tag_accepted`: every tag is accepted if as many are as there are.
* `IsTokenized.isSound`: every accepted mark becomes a token.
-/

namespace MarkupTransfer

open Cell (plain raws showns)
open Markup (Part escapeChar isBlankTag isSpecial)
open Text (size slice)

namespace Markup.Part

theorem raws_markTag (ps : List Part) :
    raws ((ps.map markTag).flatMap Stretch.cells) = source ps := by
  rw [flatMap_cells_markTag, Cell.raws_map_plain]

theorem raws_markBlank (ps : List Part) :
    raws ((ps.map markBlank).flatMap Stretch.cells) = source ps := by
  rw [← flatMap_results_eq results_markTag, Stretch.raws_flatMap_results, raws_markTag]

theorem raws_markWord (groups : List (List Part)) :
    raws ((groups.map markWord).flatMap Stretch.cells) = source groups.flatten := by
  rw [flatMap_cells_markWord, raws_map_cell]

/-- The mark of a part that stands behind others. -/
def markAt (role : Role) (front : List Part) (raw shown : Text) (replacement : Option Text) :
    Mark :=
  ⟨size (source front), size (source front) + size raw, shown, replacement, some role⟩

theorem mem_marks_markTag {ps : List Part} {m : Mark} :
    m ∈ Stretch.marks (some .xmlTag) raws 0 (ps.map markTag) ↔
      ∃ front text back, ps = front ++ tag text :: back ∧
        m = markAt .xmlTag front text text (some [' ']) := by
  rw [Stretch.mem_marks_map]
  constructor
  · rintro ⟨front, p, back, r, rfl, hr, rfl⟩
    cases p with
    | tag text =>
      obtain rfl : some [' '] = r := Treatment.edit.inj hr
      exact ⟨front, text, back, rfl, by simp [raws_markTag, markTag, markAt]⟩
    | char c => cases hr
  · rintro ⟨front, text, back, rfl, rfl⟩
    exact ⟨front, tag text, back, _, rfl, rfl, by simp [raws_markTag, markTag, markAt]⟩

theorem length_marks_markTag (n m : Nat) (ps : List Part) :
    (Stretch.marks (some .xmlTag) raws n (ps.map markTag)).length =
      (occurrences m ps).length := by
  induction ps generalizing n m with
  | nil => rfl
  | cons p ps ih =>
    cases p with
    | tag text => simp [markTag, Stretch.marks, occurrences, ih _ (m + size text)]
    | char c => simp [markTag, Stretch.marks, occurrences, ih _ (m + size (escapeChar c))]

theorem mem_marks_markBlank {ps : List Part} {m : Mark} :
    m ∈ Stretch.marks (some .whitespaceTag) raws 0 (ps.map markBlank) ↔
      ∃ front c back, ps = front ++ char c :: back ∧ isBlankTag c = true ∧
        m = markAt .whitespaceTag front [c] [c] (some [' ']) := by
  rw [Stretch.mem_marks_map]
  constructor
  · rintro ⟨front, p, back, r, rfl, hr, rfl⟩
    cases p with
    | tag text => cases hr
    | char c =>
      cases hc : isBlankTag c with
      | false => simp [markBlank, hc] at hr
      | true =>
        obtain rfl : some [' '] = r := by simpa [markBlank, hc] using hr
        exact ⟨front, c, back, rfl, hc, by
          simp [raws_markBlank, markBlank, markAt, escapeChar_of_isBlankTag hc, plain]⟩
  · rintro ⟨front, c, back, rfl, hc, rfl⟩
    exact ⟨front, char c, back, some [' '], rfl, by simp [markBlank, hc], by
      simp [raws_markBlank, markBlank, markAt, escapeChar_of_isBlankTag hc, plain]⟩

theorem mem_marks_markWord {groups : List (List Part)} {m : Mark} :
    m ∈ Stretch.marks (some .word) raws 0 (groups.map markWord) ↔
      ∃ front group back, groups = front ++ group :: back ∧
        Text.isBlank (group.map face) = false ∧
        m = markAt .word front.flatten (source group) (group.map face) none := by
  rw [Stretch.mem_marks_map]
  constructor
  · rintro ⟨front, group, back, r, rfl, hr, rfl⟩
    cases hg : Text.isBlank (group.map face) with
    | false =>
      obtain rfl : none = r := by simpa [markWord, hg] using hr
      refine ⟨front, group, back, rfl, hg, ?_⟩
      simp [raws_markWord, markWord, markAt, raws_map_cell, showns_map_cell]
    | true => simp [markWord, hg] at hr
  · rintro ⟨front, group, back, rfl, hg, rfl⟩
    refine ⟨front, group, back, none, rfl, by simp [markWord, hg], ?_⟩
    simp [raws_markWord, markWord, markAt, raws_map_cell, showns_map_cell]

end Markup.Part

/-! ## Accepted marks -/

open Markup.Part (markAt mem_marks_markTag mem_marks_markBlank mem_marks_markWord)

/-- What a part or some parts are in the source, given the parts before and behind them. -/
theorem slice_source (front ps back : List Part) :
    slice (Part.source (front ++ ps ++ back)) (size (Part.source front))
      (size (Part.source front) + size (Part.source ps)) = Part.source ps := by
  rw [Part.source_append, Part.source_append, Text.slice_size]

namespace Draft.IsTokenized

variable {d : Draft} {ps : List Part} {groups : List (List Part)}

/-- What a mark that asks for a token stands for. -/
theorem mem_marks_cases (h : d.IsTokenized ps groups) {m : Mark} (hm : m ∈ d.marks)
    (hrole : m.role.isSome) :
    (∃ front text back, ps = front ++ .tag text :: back ∧
      m = markAt .xmlTag front text text (some [' '])) ∨
    (∃ front c back, ps = front ++ .char c :: back ∧ isBlankTag c = true ∧
      m = markAt .whitespaceTag front [c] [c] (some [' '])) ∨
    ∃ front group back, groups = front ++ group :: back ∧
      Text.isBlank (group.map Part.face) = false ∧
      m = markAt .word front.flatten (Part.source group) (group.map Part.face) none := by
  rw [h.marks_eq] at hm
  rcases List.mem_append.mp hm with hm | hm
  · rcases List.mem_append.mp hm with hm | hm
    · rcases List.mem_append.mp hm with hm | hm
      · exact .inl (mem_marks_markTag.mp hm)
      · exact .inr (.inl (mem_marks_markBlank.mp hm))
    · obtain ⟨_, _, _, _, -, rfl⟩ := Stretch.exists_of_mem_marks hm
      cases hrole
  · exact .inr (.inr (mem_marks_markWord.mp hm))

/-- What an accepted mark stands for. -/
theorem mem_accepted_cases (h : d.IsTokenized ps groups) {a : Accepted}
    (ha : a ∈ Mark.accepted d.marks) :
    (∃ front text back, ps = front ++ .tag text :: back ∧
      a = ⟨markAt .xmlTag front text text (some [' ']), .xmlTag⟩) ∨
    (∃ front c back, ps = front ++ .char c :: back ∧ isBlankTag c = true ∧
      a = ⟨markAt .whitespaceTag front [c] [c] (some [' ']), .whitespaceTag⟩) ∨
    ∃ front group back, groups = front ++ group :: back ∧
      Text.isBlank (group.map Part.face) = false ∧
      a = ⟨markAt .word front.flatten (Part.source group) (group.map Part.face) none, .word⟩ := by
  obtain ⟨m, role⟩ := a
  obtain ⟨hm, hrole⟩ : m ∈ d.marks ∧ m.role = some role :=
    Mark.mem_of_mem_accepted ha
  rcases h.mem_marks_cases hm (by simp [hrole]) with
    ⟨front, text, back, hps, rfl⟩ | ⟨front, c, back, hps, hc, rfl⟩ |
    ⟨front, group, back, hgroups, hg, rfl⟩
  · obtain rfl : _ = role := Option.some.inj hrole
    exact .inl ⟨front, text, back, hps, rfl⟩
  · obtain rfl : _ = role := Option.some.inj hrole
    exact .inr (.inl ⟨front, c, back, hps, hc, rfl⟩)
  · obtain rfl : _ = role := Option.some.inj hrole
    exact .inr (.inr ⟨front, group, back, hgroups, hg, rfl⟩)

/-- A mark that asks for a token covers some parts. -/
theorem exists_parts (h : d.IsTokenized ps groups) {m : Mark} (hm : m ∈ d.marks)
    (hrole : m.role.isSome) :
    ∃ front part back, ps = front ++ part ++ back ∧ part ≠ [] ∧
      m.start = size (Part.source front) ∧
      m.stop = size (Part.source front) + size (Part.source part) := by
  rcases h.mem_marks_cases hm hrole with ⟨front, text, back, hps, rfl⟩ |
    ⟨front, c, back, hps, hc, rfl⟩ | ⟨front, group, back, hgroups, hg, rfl⟩
  · exact ⟨front, [.tag text], back, by simp [hps], by simp, rfl, by
      simp [markAt, Part.raw]⟩
  · exact ⟨front, [.char c], back, by simp [hps], by simp, rfl, by
      simp [markAt, Part.raw, Part.escapeChar_of_isBlankTag hc]⟩
  · refine ⟨front.flatten, group, back.flatten, by simp [← h.flatten_eq, hgroups], ?_, rfl, rfl⟩
    rintro rfl
    cases hg

theorem start_lt_stop (h : d.IsTokenized ps groups) {m : Mark} (hm : m ∈ d.marks)
    (hrole : m.role.isSome) : m.start < m.stop := by
  obtain ⟨front, part, back, rfl, hne, hstart, hstop⟩ := h.exists_parts hm hrole
  have := Text.size_pos (Part.source_ne_nil
    (fun p hp => h.found.raw_ne_nil p (by simp [hp])) hne)
  omega

theorem start_lt_stop_of_accepted (h : d.IsTokenized ps groups) {a : Accepted}
    (ha : a ∈ Mark.accepted d.marks) : a.mark.start < a.mark.stop := by
  obtain ⟨hm, hrole⟩ := Mark.mem_of_mem_accepted ha
  exact h.start_lt_stop hm (by simp [hrole])

/-- **Every accepted mark becomes a token.** -/
theorem isSound (h : d.IsTokenized ps groups) {a : Accepted} (ha : a ∈ Mark.accepted d.marks) :
    a.IsSound (Part.source ps) := by
  intro left right count
  rcases h.mem_accepted_cases ha with ⟨front, text, back, hps, rfl⟩ |
    ⟨front, c, back, hps, hc, rfl⟩ | ⟨front, group, back, hgroups, hg, rfl⟩
  · have htext : Accepted.text (Part.source ps)
        ⟨markAt .xmlTag front text text (some [' ']), .xmlTag⟩ = text := by
      have hslice := slice_source front [.tag text] back
      simpa [Accepted.text, Role.isTag, Role.cls, markAt, hps, Part.raw] using hslice
    obtain ⟨hne, hlength, -⟩ := (hps ▸ h.found).of_append
    have hread := Markup.isSome_read? hlength hne
    cases hr : Tag.read? text with
    | none => simp [hr] at hread
    | some r => exact ⟨_, by rw [htext, Role.token, Tag.xml, hr]; rfl⟩
  · have htext : Accepted.text (Part.source ps)
        ⟨markAt .whitespaceTag front [c] [c] (some [' ']), .whitespaceTag⟩ = [c] := by
      have hslice := slice_source front [.char c] back
      simpa [Accepted.text, Role.isTag, Role.cls, markAt, hps, Part.raw,
        Part.escapeChar_of_isBlankTag hc] using hslice
    exact ⟨_, by rw [htext, Role.token, Tag.whitespace]; rfl⟩
  · exact ⟨_, rfl⟩

/-- **Every word is accepted**: words are marked last. -/
theorem word_accepted (h : d.IsTokenized ps groups) {front back : List (List Part)}
    {group : List Part} (hgroups : groups = front ++ group :: back)
    (hg : Text.isBlank (group.map Part.face) = false) :
    ⟨markAt .word front.flatten (Part.source group) (group.map Part.face) none, .word⟩ ∈
      Mark.accepted d.marks := by
  rw [Mark.mem_accepted, h.marks_eq]
  refine Mark.mem_acceptAll_append (mem_marks_markWord.mpr ⟨front, group, back, hgroups, hg, rfl⟩)
    rfl ?_ (Stretch.marks_pairwise _ 0 _)
  intro m hm
  obtain ⟨front, group, back, rfl, hg, rfl⟩ := mem_marks_markWord.mp hm
  have hne : group ≠ [] := by
    rintro rfl
    cases hg
  have := Text.size_pos (Part.source_ne_nil
    (fun p hp => h.found.raw_ne_nil p (by simp [← h.flatten_eq, hp])) hne)
  simp only [markAt]
  omega

/-- **Every tag is accepted if as many are as there are.** -/
theorem tag_accepted (h : d.IsTokenized ps groups)
    (hcount : (Markup.tags (Part.source ps)).length ≤
      ((Mark.accepted d.marks).filter fun a => a.role = .xmlTag).length)
    {front back : List Part} {text : Text} (hps : ps = front ++ .tag text :: back) :
    ⟨markAt .xmlTag front text text (some [' ']), .xmlTag⟩ ∈ Mark.accepted d.marks := by
  have hfilter : d.marks.filter (fun m => m.role = some .xmlTag) =
      Stretch.marks (some .xmlTag) raws 0 (ps.map Part.markTag) := by
    have hkeep : ∀ m ∈ Stretch.marks (some .xmlTag) raws 0 (ps.map Part.markTag),
        decide (m.role = some .xmlTag) = true := by
      intro m hm
      simp [Stretch.role_of_mem_marks hm]
    have hdrop : ∀ {role : Option Role} {gs : List Stretch}, role ≠ some .xmlTag →
        (Stretch.marks role raws 0 gs).filter (fun m => m.role = some .xmlTag) = [] := by
      intro role gs hrole
      refine List.filter_eq_nil_iff.mpr fun m hm => ?_
      simpa [Stretch.role_of_mem_marks hm] using hrole
    rw [h.marks_eq, List.filter_append, List.filter_append, List.filter_append,
      List.filter_eq_self.mpr hkeep, hdrop (by decide), hdrop (by decide), hdrop (by decide)]
    simp
  refine Mark.mem_accepted.mpr (Mark.mem_acceptAll_of_length_le ?_ ?_ rfl)
  · rw [hfilter, Part.length_marks_markTag 0 0, ← Part.tags_source h.found]
    exact Nat.le_trans hcount
      (Nat.le_of_eq (((Mark.accepted_perm d.marks).filter _).length_eq))
  · have hmem := mem_marks_markTag.mpr ⟨front, text, back, hps, rfl⟩
    rw [← hfilter] at hmem
    exact (List.mem_filter.mp hmem).1

end Draft.IsTokenized

end MarkupTransfer
