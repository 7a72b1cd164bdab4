import Mathlib
import MarkupTransfer.Proofs.Tokenize.Marks
/-!
# Tokenizing loses nothing

An escaped text is tokenized and shown again as it was. Tags are shown as they stand; words are
decoded and escaped again, and a word that holds no tag is in its escaped form already; and what is
left between the tokens holds no ampersand, since the characters that references stand for are words
or parts of words.

* `Accepted.patchwork_eq`: when the forms of tokens and spaces are the text itself.
* `markup_tokenize`: the round trip.
-/

namespace MarkupTransfer

open Cell (raws showns)
open Markup (Part escapeChar isBlankTag isSpecial)
open Text (size slice)

/-- A patchwork is the source itself if every token stands in its form and every ampersand belongs
to a token. -/
theorem Accepted.patchwork_eq {source : Text} {cursor : Nat} {as : List Accepted}
    (hcursor : ∀ a ∈ as, cursor ≤ a.mark.start)
    (hordered : ∀ a ∈ as, a.mark.start ≤ a.mark.stop)
    (hapart : as.Pairwise fun a b => a.mark.stop ≤ b.mark.start)
    (hinside : ∀ a ∈ as, a.form (slice source a.mark.start a.mark.stop) =
      slice source a.mark.start a.mark.stop)
    (houtside : ∀ s r, source = s ++ '&' :: r → cursor ≤ size s →
      ∃ a ∈ as, a.mark.start ≤ size s ∧ size s < a.mark.stop) :
    patchwork Markup.unescape form source cursor as = slice source cursor source.size := by
  rw [← patchwork_unchanged source hcursor hordered hapart]
  have hsize : '&'.utf8Size = 1 := rfl
  induction as generalizing cursor with
  | nil =>
    refine Markup.unescape_of_not_mem fun hmem => ?_
    obtain ⟨s, r, hs, hstart, -⟩ := Text.exists_eq_append_of_mem_slice hmem
    obtain ⟨a, ha, -⟩ := houtside s r hs (by omega)
    cases ha
  | cons a rest ih =>
    obtain ⟨hfirst, hrest⟩ := List.pairwise_cons.mp hapart
    have hstart := hcursor a (by simp)
    have hstop := hordered a (by simp)
    have hgap : Markup.unescape (slice source cursor a.mark.start) =
        slice source cursor a.mark.start := by
      refine Markup.unescape_of_not_mem fun hmem => ?_
      obtain ⟨s, r, hs, hlow, hhigh⟩ := Text.exists_eq_append_of_mem_slice hmem
      obtain ⟨b, hb, hbstart, hbstop⟩ := houtside s r hs (by omega)
      rcases List.mem_cons.mp hb with rfl | hb
      · omega
      · have := hfirst b hb
        omega
    have hbehind : ∀ s r, source = s ++ '&' :: r → a.mark.stop ≤ size s →
        ∃ b ∈ rest, b.mark.start ≤ size s ∧ size s < b.mark.stop := by
      intro s r hs hle
      obtain ⟨b, hb, hbstart, hbstop⟩ := houtside s r hs (by omega)
      rcases List.mem_cons.mp hb with rfl | hb
      · omega
      · exact ⟨b, hb, hbstart, hbstop⟩
    rw [patchwork, patchwork, hgap, hinside a (by simp),
      ih hfirst (fun b hb => hordered b (by simp [hb])) hrest
        (fun b hb => hinside b (by simp [hb])) hbehind]

namespace Draft.IsTokenized

variable {d : Draft} {ps : List Part} {groups : List (List Part)}

/-- A part that shows something else than white space belongs to a word. -/
theorem exists_word_of_face (h : d.IsTokenized ps groups) {front back : List Part} {p : Part}
    (hps : ps = front ++ p :: back) (hp : Text.isBlankChar p.face = false) :
    ∃ a ∈ Mark.accepted d.marks, a.mark.start ≤ size (Part.source front) ∧
      size (Part.source front) + size p.raw ≤ a.mark.stop := by
  obtain ⟨before, left, right, behind, hgroups, hfront, -⟩ :=
    exists_of_flatten_eq (h.flatten_eq.trans hps)
  have hgroup : Text.isBlank ((left ++ p :: right).map Part.face) = false := by
    simp [Text.isBlank, hp]
  refine ⟨_, h.word_accepted hgroups hgroup, ?_, ?_⟩ <;>
    simp only [Part.markAt, hfront, Part.source_append, Part.source_cons, Text.size_append] <;>
      omega

/-- The tags among the parts are accepted. -/
def KeepsTags (d : Draft) (ps : List Part) : Prop :=
  ∀ front text back, ps = front ++ .tag text :: back →
    ⟨Part.markAt .xmlTag front text text (some [' ']), .xmlTag⟩ ∈ Mark.accepted d.marks

/-- Every ampersand belongs to an accepted mark. -/
theorem exists_accepted_of_ampersand (h : d.IsTokenized ps groups) (hkeeps : KeepsTags d ps)
    {s r : Text} (hs : Part.source ps = s ++ '&' :: r) :
    ∃ a ∈ Mark.accepted d.marks, a.mark.start ≤ size s ∧ size s < a.mark.stop := by
  obtain ⟨front, p, back, s', r', hps, hraw, rfl, -⟩ := exists_of_flatMap_eq hs
  have hsize : size s' < size p.raw := by
    have := '&'.utf8Size_pos
    rw [hraw, Text.size_append, Text.size_cons]
    omega
  have hfront : front.flatMap Part.raw = Part.source front := rfl
  rw [hfront, Text.size_append]
  cases p with
  | tag text =>
    refine ⟨_, hkeeps front text back hps, ?_, ?_⟩ <;> simp only [Part.markAt, Part.raw] at * <;>
      omega
  | char c =>
    have hspecial : isSpecial c = true := by
      cases hc : isSpecial c with
      | true => rfl
      | false =>
        have hmem : '&' ∈ (Part.char c).raw := by simp [hraw]
        rw [Part.raw, Markup.escapeChar_of_not_isSpecial hc, List.mem_singleton] at hmem
        simp [← hmem, isSpecial] at hc
    have hface : Text.isBlankChar (Part.char c).face = false := by
      rcases Markup.isSpecial_cases hspecial with rfl | rfl | rfl <;> decide
    obtain ⟨a, ha, hstart, hstop⟩ := h.exists_word_of_face hps hface
    exact ⟨a, ha, by omega, by omega⟩

/-- A word holds no tag. -/
theorem not_tag_mem_group (h : d.IsTokenized ps groups) (hkeeps : KeepsTags d ps)
    {front back : List (List Part)} {group : List Part} (hgroups : groups = front ++ group :: back)
    (hg : Text.isBlank (group.map Part.face) = false) (text : Text) : .tag text ∉ group := by
  intro hmem
  obtain ⟨left, right, hgroup⟩ := List.append_of_mem hmem
  have hps : ps = (front.flatten ++ left) ++ .tag text :: (right ++ back.flatten) := by
    simp [← h.flatten_eq, hgroups, hgroup]
  have htag := hkeeps _ _ _ hps
  have hword := h.word_accepted hgroups hg
  have hmeets : (Part.markAt .xmlTag (front.flatten ++ left) text text (some [' '])).range.Meets
      (Part.markAt .word front.flatten (Part.source group) (group.map Part.face) none).range := by
    have hlt := h.start_lt_stop_of_accepted htag
    simp only [Part.markAt] at hlt
    simp only [Range.Meets, Mark.range, Part.markAt, hgroup, Part.source_append, Part.source_cons,
      Part.raw, Text.size_append] at hlt ⊢
    omega
  have heq := Mark.eq_of_meets (Mark.mem_accepted.mp htag) (Mark.mem_accepted.mp hword) hmeets
  cases congrArg Accepted.role heq

theorem source_eq_escape {group : List Part} (h : ∀ text, .tag text ∉ group) :
    ∃ y, Part.source group = Markup.escape y := by
  induction group with
  | nil => exact ⟨[], rfl⟩
  | cons p group ih =>
    obtain ⟨y, hy⟩ := ih fun text ht => h text (List.mem_cons_of_mem p ht)
    cases p with
    | tag text => exact absurd List.mem_cons_self (h text)
    | char c => exact ⟨c :: y, by rw [Part.source_cons, hy]; rfl⟩

/-- **Every token stands in the source in the form in which it is shown.** -/
theorem form_eq (h : d.IsTokenized ps groups) (hkeeps : KeepsTags d ps) {a : Accepted}
    (ha : a ∈ Mark.accepted d.marks) :
    a.form (slice (Part.source ps) a.mark.start a.mark.stop) =
      slice (Part.source ps) a.mark.start a.mark.stop := by
  rcases h.mem_accepted_cases ha with ⟨front, text, back, hps, rfl⟩ |
    ⟨front, c, back, hps, hc, rfl⟩ | ⟨front, group, back, hgroups, hg, rfl⟩
  · rfl
  · rfl
  · have hps : ps = front.flatten ++ group ++ back.flatten := by simp [← h.flatten_eq, hgroups]
    have hslice : slice (Part.source ps) (size (Part.source front.flatten))
        (size (Part.source front.flatten) + size (Part.source group)) = Part.source group := by
      rw [hps]
      exact slice_source _ _ _
    obtain ⟨y, hy⟩ := source_eq_escape (h.not_tag_mem_group hkeeps hgroups hg)
    simp only [Part.markAt, hslice, Accepted.form]
    rw [hy, Markup.unescape_escape]
    rfl

theorem accepted_ne_nil_of_mem_marks (h : d.IsTokenized ps groups) {m : Mark} (hm : m ∈ d.marks)
    (hrole : m.role.isSome) : Mark.accepted d.marks ≠ [] := by
  obtain ⟨a, ha, -⟩ := Mark.exists_meets_of_mem hm hrole (h.start_lt_stop hm hrole)
  exact List.ne_nil_of_mem (Mark.mem_accepted.mpr ha)

theorem mem_marks_of_tag (h : d.IsTokenized ps groups) {front back : List Part} {text : Text}
    (hps : ps = front ++ .tag text :: back) :
    Part.markAt .xmlTag front text text (some [' ']) ∈ d.marks := by
  have := Part.mem_marks_markTag.mpr ⟨front, text, back, hps, rfl⟩
  simp [h.marks_eq, this]

theorem mem_marks_of_blank (h : d.IsTokenized ps groups) {front back : List Part} {c : Char}
    (hps : ps = front ++ .char c :: back) (hc : isBlankTag c = true) :
    Part.markAt .whitespaceTag front [c] [c] (some [' ']) ∈ d.marks := by
  have := Part.mem_marks_markBlank.mpr ⟨front, c, back, hps, hc, rfl⟩
  simp [h.marks_eq, this]

/-- A text in which there is anything to see has a token. -/
theorem accepted_ne_nil (h : d.IsTokenized ps groups)
    (hseen : Markup.tags (Part.source ps) ≠ [] ∨
      ∃ c ∈ Part.source ps, c = '\t' ∨ c = '\n' ∨ Text.isBlankChar c = false) :
    Mark.accepted d.marks ≠ [] := by
  rcases hseen with htags | ⟨c, hc, hshown⟩
  · rw [Part.tags_source h.found] at htags
    obtain ⟨front, text, back, hps⟩ := Part.exists_tag_of_occurrences_ne_nil htags
    exact h.accepted_ne_nil_of_mem_marks (h.mem_marks_of_tag hps) rfl
  · obtain ⟨s, r, hs⟩ := List.append_of_mem hc
    obtain ⟨front, p, back, s', r', hps, hraw, -, -⟩ := exists_of_flatMap_eq hs
    cases p with
    | tag text => exact h.accepted_ne_nil_of_mem_marks (h.mem_marks_of_tag hps) rfl
    | char e =>
      cases he : isBlankTag e with
      | true => exact h.accepted_ne_nil_of_mem_marks (h.mem_marks_of_blank hps he) rfl
      | false =>
        have hce : c ∈ escapeChar e := by
          change c ∈ (Part.char e).raw
          simp [hraw]
        have hface : Text.isBlankChar (Part.char e).face = false := by
          cases hspecial : isSpecial e with
          | true => rcases Markup.isSpecial_cases hspecial with rfl | rfl | rfl <;> decide
          | false =>
            rw [Markup.escapeChar_of_not_isSpecial hspecial, List.mem_singleton] at hce
            subst hce
            rcases hshown with rfl | rfl | hshown
            · cases he
            · cases he
            · simpa [Part.face, he] using hshown
        obtain ⟨a, ha, -⟩ := h.exists_word_of_face hps hface
        exact List.ne_nil_of_mem ha

end Draft.IsTokenized

/-- **Tokenizing loses nothing.** An escaped text in which there is anything to see, and whose tags
all come out as tags, is tokenized, and with its markup the sentence is shown as the text itself. -/
theorem markup_tokenize {t : Text} (hescaped : Markup.IsEscaped t)
    (hseen : t = [] ∨ Markup.tags t ≠ [] ∨
      ∃ c ∈ t, c = '\t' ∨ c = '\n' ∨ Text.isBlankChar c = false)
    (htags : ∀ s, tokenize t = .ok s → ((Markup.tags t).map Text.Occurrence.text).Sublist
      ((s.tags.filter fun tag => tag.kind == .xml).map Tag.text)) :
    ∃ s, tokenize t = .ok s ∧ s.markup false = t := by
  obtain ⟨ps, rfl, hfound⟩ := hescaped.exists_parts
  obtain ⟨d, groups, hrun, h⟩ := Draft.runAll_standard hfound
  obtain ⟨s, hs⟩ := Draft.exists_build_eq .standard h.source_eq fun a ha => h.isSound ha
  have htokenize : tokenize (Part.source ps) = .ok s := by
    rw [tokenize, tokenizeWith, hrun]
    exact hs
  refine ⟨s, htokenize, ?_⟩
  have hkeeps : Draft.IsTokenized.KeepsTags d ps := by
    intro front text back hps
    refine h.tag_accepted ?_ hps
    have := (htags s htokenize).length_le
    rw [List.length_map, List.length_map, Draft.length_filter_tags_build h.source_eq rfl hs] at this
    exact this
  by_cases hne : Mark.accepted d.marks = []
  · have hempty : Part.source ps = [] := by
      rcases hseen with hempty | hseen
      · exact hempty
      · exact absurd hne (h.accepted_ne_nil hseen)
    rw [hempty, Draft.markup_build_of_accepted_nil h.source_eq rfl hs hne]
  · have hcovers : ∀ a ∈ Mark.accepted d.marks, a.mark.start < a.mark.stop :=
      fun a ha => h.start_lt_stop_of_accepted ha
    rw [Draft.markup_build h.source_eq rfl hs hne, Accepted.patchwork_eq
      (fun _ _ => Nat.zero_le _) (fun a ha => Nat.le_of_lt (hcovers a ha))
      (Mark.accepted_pairwise hcovers) (fun a ha => h.form_eq hkeeps ha)
      (fun s r hsource _ => h.exists_accepted_of_ampersand hkeeps hsource), Text.slice_zero]

/-- A text with an element in it, a tab, a line feed, and each of the three references. -/
def sampleMarkup : Text := "1 &lt; <b>2</b>\t&amp; x&gt;y\n".toList

/-- The parts of the sample. -/
def sampleParts : List Part :=
  "1 < ".toList.map .char ++ [.tag "<b>".toList, .char '2', .tag "</b>".toList] ++
    "\t& x>y\n".toList.map .char

theorem markup_tokenize_sampleMarkup :
    Markup.IsEscaped sampleMarkup ∧
      (sampleMarkup = [] ∨ Markup.tags sampleMarkup ≠ [] ∨
        ∃ c ∈ sampleMarkup, c = '\t' ∨ c = '\n' ∨ Text.isBlankChar c = false) ∧
      (∀ s, tokenize sampleMarkup = .ok s →
        ((Markup.tags sampleMarkup).map Text.Occurrence.text).Sublist
          ((s.tags.filter fun tag => tag.kind == .xml).map Tag.text)) ∧
      ∃ s, tokenize sampleMarkup = .ok s ∧ s.markup false = sampleMarkup := by
  have hescaped : Markup.IsEscaped sampleMarkup :=
    Markup.isEscaped_iff.mpr ⟨sampleParts, by decide, by decide⟩
  have hseen : sampleMarkup = [] ∨ Markup.tags sampleMarkup ≠ [] ∨
      ∃ c ∈ sampleMarkup, c = '\t' ∨ c = '\n' ∨ Text.isBlankChar c = false :=
    .inr (.inl (by decide))
  have htags : ∀ s, tokenize sampleMarkup = .ok s →
      ((Markup.tags sampleMarkup).map Text.Occurrence.text).Sublist
        ((s.tags.filter fun tag => tag.kind == .xml).map Tag.text) := by
    intro s hs
    have htexts : (tokenize sampleMarkup).map
        (fun s => (s.tags.filter fun tag => tag.kind == .xml).map Tag.text) =
        .ok ["<b>".toList, "</b>".toList] := by cbv
    rw [hs] at htexts
    have hkept : (s.tags.filter fun tag => tag.kind == .xml).map Tag.text =
        ["<b>".toList, "</b>".toList] := Except.ok.inj htexts
    have hfound : (Markup.tags sampleMarkup).map Text.Occurrence.text =
        ["<b>".toList, "</b>".toList] := by decide
    exact hkept ▸ hfound ▸ List.Sublist.refl _
  exact ⟨hescaped, hseen, htags, markup_tokenize hescaped hseen htags⟩

end MarkupTransfer
