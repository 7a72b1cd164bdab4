import Mathlib
import MarkupTransfer.Proofs.Draft.Tokens
import MarkupTransfer.Proofs.Tokenize.KeptTags
/-!
# The built-in rows of passes succeed

The passes that come with the tokenizer, in either row, go through on every text: none of their
edits is turned down, and no position leaves the text or falls inside a character when they are
committed. A mark that asks for a tag is read again, from the source and by other rules than those
by which the tag was found; that succeeds too, so the sentence has a token for every mark that is
accepted.

* `Draft.GoesThrough`: a run of passes in which every check holds.
* `Draft.Reachable.goesThrough`: a row of passes that reports no error goes through.
* `Draft.exists_isReadWithNames`: what the passes that keep tabs and line feeds as words make of a
  text.
* `Pass.succeed_builtIn`: both rows of passes succeed on every text.
-/

namespace MarkupTransfer

open Cell (plain raws showns)
open Markup (tagMark tagStretches)
open Text (size Occurrence)

/-! ## Passes that go through -/

/-- Passes lead from one draft to another, one session each. No edit is turned down, and no check
fails when a session is committed. -/
inductive Draft.GoesThrough : Draft → List Pass → Draft → Prop
  | nil (d : Draft) : GoesThrough d [] d
  | cons {d d' : Draft} {p : Pass} {rest : List Pass} {s : Session} :
      d.edit.recordAll (p.edits d.buffer) = (s, none) →
      d.placed.applyMarks? 0 0 s.pending = some (d.commit s).placed →
      GoesThrough (d.commit s) rest d' → GoesThrough d (p :: rest) d'

theorem Draft.run_eq_ok {d d' : Draft} {p : Pass} (h : d.run p = .ok d') :
    ∃ s, d.edit.recordAll (p.edits d.buffer) = (s, none) ∧ d' = d.commit s := by
  rw [Draft.run] at h
  split at h
  · next s hs => exact ⟨s, hs, (Except.ok.inj h).symm⟩
  · cases h

/-- **Passes that report no error go through.** -/
theorem Draft.Reachable.goesThrough {source : Text} {d d' : Draft} {passes : List Pass}
    (h : Reachable source d) (hrun : d.runAll passes = .ok d') :
    d.GoesThrough passes d' ∧ Reachable source d' := by
  induction passes generalizing d with
  | nil =>
    obtain rfl := Except.ok.inj hrun
    exact ⟨.nil d, h⟩
  | cons p rest ih =>
    rw [Draft.runAll] at hrun
    split at hrun
    · next d₁ hd₁ =>
      obtain ⟨s, hs, rfl⟩ := Draft.run_eq_ok hd₁
      obtain rfl := Session.recordEach_of_recordAll hs
      obtain ⟨hrest, hreach⟩ := ih (.commit _ h) hrun
      exact ⟨.cons hs (commit_carries h.isWoven _).checked hrest, hreach⟩
    · cases hrun

/-! ## Tabs and line feeds as words -/

/-- The name of a tab or a line feed takes its place. -/
def Markup.nameBlank (t : Text) : Treatment := .edit (some (Pass.blankPlaceholder t))

theorem Markup.nameBlank_ne (t : Text) : nameBlank t ≠ .edit (some []) := by
  unfold nameBlank Pass.blankPlaceholder
  split <;> simp

/-- The marks of the tabs and line feeds of a text, each under its name. -/
def Markup.nameMarks (t : Text) : List Mark :=
  Stretch.marks (some .word) raws 0 (Stretch.divide blankTagLength nameBlank (cellsWithBlanks t))

theorem Pass.edits_spacePlaceholders (t : Text) : spacePlaceholders.edits t =
    (Text.scan Markup.blankTagLength t).filterMap
      (Stretch.editOf (some .word) Markup.nameBlank) := by
  have hedit : Stretch.editOf (some .word) Markup.nameBlank =
      some ∘ fun o => tokenEdit .word (some (blankPlaceholder o.text)) o := rfl
  rw [hedit, List.filterMap_eq_map]
  rfl

/-- A draft of a text as the passes leave it that keep tabs and line feeds as words. The groups of
cells show the segments of the text that words are read from, and every tab and line feed there is
marked under its name. -/
structure Draft.IsReadWithNames (d : Draft) (t : Text) (groups : List (List Cell)) : Prop where
  flatten_eq : groups.flatten = Markup.cellsWithBlanks t
  showns_eq : groups.map showns = Text.segments (showns (Markup.cellsWithBlanks t))
  marks_eq : d.marks =
    Stretch.marks (some .xmlTag) raws 0 (tagStretches t) ++
    Stretch.marks none raws 0 (Stretch.divide Markup.referenceLength Markup.decodeToken
      ((tagStretches t).flatMap Stretch.results)) ++
    (Stretch.marks (some .word) raws 0 (groups.map Stretch.ofGroup) ++ Markup.nameMarks t)

/-- **What the passes that keep tabs and line feeds as words make of a text.** The first two leave
the row of cells that words are read from. -/
theorem Draft.exists_isReadWithNames (t : Text) :
    ∃ front d groups, (Draft.ofText t).runAll [.xmlTags, .entities] = .ok front ∧
      front.IsRow (Markup.cellsWithBlanks t) ∧
      (Draft.ofText t).runAll Pass.withSpacePlaceholders = .ok d ∧ d.IsReadWithNames t groups := by
  obtain ⟨d₁, hrun₁, hrow₁, hmarks₁⟩ := (IsRow.ofText t).run_divide
    (Cell.isGlyph_of_mem_map_plain t) (fun r => (Markup.isSingle_blankOut r).ne) Pass.edits_xmlTags
  obtain ⟨d₂, hrun₂, hrow₂, hmarks₂⟩ := hrow₁.run_divide (Markup.isGlyph_tagStretches t)
    (fun r => (Markup.isSingle_decodeToken r).ne) Pass.edits_entities
  have hglyphs := Markup.isGlyph_cellsWithBlanks t
  obtain ⟨d₃, groups, hrun₃, hflatten, hshowns, hrow₃, hmarks₃⟩ := hrow₂.run_words hglyphs
  obtain ⟨d₄, hrun₄, -, hmarks₄⟩ := hrow₃.run_divide hglyphs Markup.nameBlank_ne
    Pass.edits_spacePlaceholders
  refine ⟨d₂, d₄, groups, by simp only [runAll, hrun₁, hrun₂], hrow₂, ?_, hflatten, hshowns, ?_⟩
  · simp only [Pass.withSpacePlaceholders, runAll, hrun₁, hrun₂, hrun₃, hrun₄]
  · rw [hmarks₄, hmarks₃, hmarks₂, hmarks₁, List.append_assoc _ (Stretch.marks _ _ _ _)]
    rfl

namespace Draft.IsReadWithNames

variable {d : Draft} {t : Text} {groups : List (List Cell)}

/-- What a mark that asks for a token stands for. -/
theorem mem_marks_cases (h : d.IsReadWithNames t groups) {m : Mark} (hm : m ∈ d.marks)
    (hrole : m.role.isSome) :
    (∃ o ∈ Markup.tags t, m = tagMark o) ∨
      m ∈ Stretch.marks (some .word) raws 0 (groups.map Stretch.ofGroup) ∨
      m ∈ Markup.nameMarks t := by
  rw [h.marks_eq, Markup.marks_tagStretches] at hm
  rcases List.mem_append.mp hm with hm | hm
  · rcases List.mem_append.mp hm with hm | hm
    · obtain ⟨o, ho, rfl⟩ := List.mem_map.mp hm
      exact .inl ⟨o, ho, rfl⟩
    · rw [Stretch.role_of_mem_marks hm] at hrole
      cases hrole
  · exact .inr (List.mem_append.mp hm)

theorem isBuiltIn (h : d.IsReadWithNames t groups) {m : Mark} (hm : m ∈ d.marks) :
    m.IsBuiltIn t := by
  cases hrole : m.role with
  | none => exact .replaced hrole
  | some role =>
    rcases h.mem_marks_cases hm (by simp [hrole]) with ⟨o, ho, rfl⟩ | hword | hname
    · exact .tag o ho rfl
    · exact .word (Stretch.role_of_mem_marks hword)
    · exact .word (Stretch.role_of_mem_marks hname)

end Draft.IsReadWithNames

/-- **The passes that keep tabs and line feeds as words** report no error on any text. -/
theorem Draft.exists_run_withSpacePlaceholders (t : Text) :
    ∃ d, (Draft.ofText t).runAll Pass.withSpacePlaceholders = .ok d ∧
      ∀ m ∈ d.marks, m.IsBuiltIn t := by
  obtain ⟨-, d, groups, -, -, hrun, h⟩ := exists_isReadWithNames t
  exact ⟨d, hrun, fun m hm => h.isBuiltIn hm⟩

/-! ## Both rows of passes -/

/-- Passes succeed on a text: they go through and a sentence is built, whatever is to become of
malformed tags and whichever dialects are known. What is cut out of the text lies between the edges
of characters, the marks accepted as markup cover tags, which can be read, and those accepted as
blanks cover one character each. Every accepted mark becomes a token, so nothing is left out. -/
structure Pass.Succeed (passes : List Pass) (options : Options) (t : Text) (d : Draft)
    (s : Sentence) : Prop where
  goesThrough : (Draft.ofText t).GoesThrough passes d
  tokenizeWith_eq : tokenizeWith options passes t = .ok s
  anchored : ∀ a ∈ Mark.accepted d.marks, a.mark.IsAnchored t
  xmlTag : ∀ a ∈ Mark.accepted d.marks, a.role = .xmlTag →
    (∃ o ∈ Markup.tags t, a.text t = o.text) ∧
      ∀ left right position, ∃ tag, Tag.xml (a.text t) left right position = .ok tag
  whitespaceTag : ∀ a ∈ Mark.accepted d.marks, a.role = .whitespaceTag → ∃ c, a.text t = [c]
  kept : Accepted.AreLaidOut t (Mark.accepted d.marks) s.tokens

theorem Pass.exists_succeed {passes : List Pass} (options : Options) {t : Text} {d : Draft}
    (hrun : (Draft.ofText t).runAll passes = .ok d) (hmarks : ∀ m ∈ d.marks, m.IsBuiltIn t) :
    ∃ d s, Succeed passes options t d s := by
  obtain ⟨hpasses, hreach⟩ := Draft.Reachable.ofText.goesThrough hrun
  have hbuiltIn : ∀ a ∈ Mark.accepted d.marks, a.mark.IsBuiltIn t ∧ a.mark.role = some a.role :=
    fun a ha => (Mark.mem_of_mem_accepted ha).imp_left (hmarks a.mark)
  obtain ⟨s, hs, hkept⟩ := Draft.exists_build_areLaidOut options hreach.source_eq fun a ha =>
    (hbuiltIn a ha).1.isSound (hbuiltIn a ha).2
  refine ⟨d, s, hpasses, by rw [tokenizeWith, hrun]; exact hs,
    fun a ha => hreach.isWoven.anchored _ (Mark.mem_of_mem_accepted ha).1, ?_, ?_, hkept⟩
  · rintro ⟨m, role⟩ ha rfl
    obtain ⟨hm, hrole⟩ := hbuiltIn _ ha
    obtain ⟨o, ho, htext⟩ := hm.exists_tag hrole
    exact ⟨⟨o, ho, htext⟩, by rw [htext]; exact Markup.exists_xml_eq ho⟩
  · rintro ⟨m, role⟩ ha rfl
    obtain ⟨hm, hrole⟩ := hbuiltIn _ ha
    exact hm.exists_blank hrole

/-- **Either row of passes succeeds on every text**, and all that is found as a tag can be read as
one. -/
theorem Pass.succeed_builtIn (options : Options) (t : Text) :
    (∀ o ∈ Markup.tags t, ∀ left right position,
        ∃ tag, Tag.xml o.text left right position = .ok tag) ∧
      (∃ d s, Succeed standard options t d s) ∧
      ∃ d s, Succeed withSpacePlaceholders options t d s := by
  refine ⟨fun o ho => Markup.exists_xml_eq ho, ?_, ?_⟩
  · obtain ⟨d, groups, hrun, h⟩ := Draft.exists_isRead t
    exact exists_succeed options hrun fun m hm => h.isBuiltIn hm
  · obtain ⟨d, hrun, h⟩ := Draft.exists_run_withSpacePlaceholders t
    exact exists_succeed options hrun h

end MarkupTransfer
