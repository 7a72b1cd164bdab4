import Mathlib
import MarkupTransfer.Proofs.Markup.Decoding
import MarkupTransfer.Proofs.Tokenize.Words
/-!
# References decoded in the working text and in the source

A word is known twice: by what the working text had where it was marked, references decoded one by
one there, and by what the source has there, decoded in one go. A word need not begin or end where a
reference does, since a reference that stands for nothing is text like any other and may be divided
into words. The two still agree. The pass over references leaves none in the row of cells
(`IsRaw.isSettled`), no part of such a row has one either (`IsSettled.left`, `IsSettled.right`), and
in a row without any, decoding what the cells stand for finds the references that were decoded and
no others (`Cell.unescape_raws`).

* `Markup.cells_cases`: what a cell of which words are made stands for.
* `Draft.IsRead.unescape_slice`: a word free of markup says the same in both texts.
* `references_agree`: the pass over references decodes a text, and words agree with their source.
-/

namespace MarkupTransfer

open Cell (plain raws showns)
open Markup (decode? isReferenceBody decodeToken referenceLength tagStretches blankStretches)
open Text (size slice Occurrence)

/-! ## Rows in which references have been decoded -/

namespace Cell

/-- A copied character, or a reference in whose place stands what it stands for. -/
inductive IsDecoded : Cell → Prop
  | plain (c : Char) : IsDecoded (plain c)
  | reference {body : Text} {d : Char} :
      decode? body = some d → IsDecoded ⟨'&' :: (body ++ [';']), [d]⟩

/-- No reference has been left in a row: where copied characters have the form of one, it stands for
nothing. -/
def IsSettled : List Cell → Prop
  | [] => True
  | c :: cs =>
    (∀ body back, c :: cs = ('&' :: (body ++ [';'])).map plain ++ back → decode? body = none) ∧
      IsSettled cs

variable {as bs cs : List Cell}

theorem IsSettled.right (h : IsSettled (as ++ bs)) : IsSettled bs := by
  induction as with
  | nil => exact h
  | cons a as ih => exact ih h.2

theorem IsSettled.left (h : IsSettled (as ++ bs)) : IsSettled as := by
  induction as with
  | nil => trivial
  | cons a as ih =>
    refine ⟨fun body back heq => h.1 body (back ++ bs) ?_, ih h.2⟩
    rw [← List.append_assoc, ← heq]
    rfl

theorem plain_inj {c d : Char} (h : plain c = plain d) : c = d := by
  simpa [plain] using h

/-- Copied characters other than ampersands leave no reference. -/
theorem IsSettled.map_plain_append {u : Text} (hu : '&' ∉ u) (h : IsSettled cs) :
    IsSettled (u.map plain ++ cs) := by
  induction u with
  | nil => exact h
  | cons c u ih =>
    rw [List.mem_cons, not_or] at hu
    refine ⟨fun body back heq => ?_, ih hu.2⟩
    exact absurd (plain_inj (List.head_eq_of_cons_eq heq)).symm hu.1

/-- What stands in front of an ampersand in the source was copied. -/
theorem exists_of_raws_eq {u v : Text} (h : ∀ c ∈ cs, c.IsDecoded) (hu : '&' ∉ u)
    (hraws : raws cs = u ++ v) : ∃ rest, cs = u.map plain ++ rest := by
  induction u generalizing cs with
  | nil => exact ⟨cs, rfl⟩
  | cons x u ih =>
    rw [List.mem_cons, not_or] at hu
    obtain _ | ⟨c, cs⟩ := cs
    · cases hraws
    obtain ⟨hc, hcs⟩ := List.forall_mem_cons.mp h
    cases hc with
    | plain d =>
      obtain ⟨rfl, hrest⟩ := List.cons.inj hraws
      obtain ⟨rest, rfl⟩ := ih hcs hu.2 hrest
      exact ⟨rest, rfl⟩
    | reference _ => exact absurd (List.head_eq_of_cons_eq hraws) hu.1

/-- **What a row stands for, decoded, is what the row shows**, if its references have been decoded
and none has been left. -/
theorem unescape_raws (h : ∀ c ∈ cs, c.IsDecoded) (hsettled : IsSettled cs) :
    Markup.unescape (raws cs) = showns cs := by
  induction cs with
  | nil => rfl
  | cons c cs ih =>
    obtain ⟨hc, hcs⟩ := List.forall_mem_cons.mp h
    have hrest := ih hcs hsettled.2
    cases hc with
    | plain d =>
      by_cases hd : d = '&'
      · subst hd
        have hnone : ∀ body tail, raws cs = body ++ ';' :: tail → '&' ∉ body →
            decode? body = none := by
          intro body tail hraws hbody
          obtain ⟨rest, rfl⟩ := exists_of_raws_eq (u := body ++ [';']) (v := tail) hcs
            (by simpa using hbody) (by simpa using hraws)
          exact hsettled.1 body rest rfl
        exact (Markup.unescape_ampersand hnone).trans (congrArg _ hrest)
      · exact (Markup.unescape_cons hd _).trans (congrArg _ hrest)
    | @reference body d hd =>
      have happend : raws (⟨'&' :: (body ++ [';']), [d]⟩ :: cs) =
          '&' :: (body ++ ';' :: raws cs) := by simp
      rw [happend, Markup.unescape_reference
        (Markup.body_mild (Markup.isReferenceBody_of_decode hd)) hd, hrest]
      rfl

end Cell

/-! ## The row that the pass over references leaves -/

namespace Markup

/-- Cells from which references are read: copied characters, and blanks. -/
def IsRaw (cs : List Cell) : Prop := ∀ c ∈ cs, (∃ d, c = plain d) ∨ c.shown = [' ']

variable {cs : List Cell}

theorem IsRaw.tail {c : Cell} (h : IsRaw (c :: cs)) : IsRaw cs :=
  fun c' hc' => h c' (List.mem_cons_of_mem c hc')

/-- What is shown in front of a blank was copied. -/
theorem IsRaw.exists_of_showns_eq {u v : Text} (h : IsRaw cs) (hu : ' ' ∉ u)
    (hshowns : showns cs = u ++ v) : ∃ rest, cs = u.map plain ++ rest := by
  induction u generalizing cs with
  | nil => exact ⟨cs, rfl⟩
  | cons x u ih =>
    rw [List.mem_cons, not_or] at hu
    obtain _ | ⟨c, cs⟩ := cs
    · cases hshowns
    rcases h c List.mem_cons_self with ⟨d, rfl⟩ | hblank
    · obtain ⟨rfl, hrest⟩ := List.cons.inj hshowns
      obtain ⟨rest, rfl⟩ := ih h.tail hu.2 hrest
      exact ⟨rest, rfl⟩
    · rw [Cell.showns_cons, hblank] at hshowns
      exact absurd (List.head_eq_of_cons_eq hshowns) hu.1

theorem decodedRow_cons_of_eq_zero {c : Cell} (h : referenceLength (showns (c :: cs)) = 0) :
    decodedRow (c :: cs) = c :: decodedRow cs := by
  rw [decodedRow, Stretch.divide_cons_of_eq_zero h]
  rfl

/-- Where a reference is found, its characters were copied. -/
theorem IsRaw.exists_of_referenceLength {n : Nat} (h : IsRaw cs)
    (hlength : referenceLength (showns cs) = n + 1) :
    ∃ body rest, cs = ('&' :: (body ++ [';'])).map plain ++ rest ∧ isReferenceBody body = true ∧
      n = (body ++ [';']).length := by
  obtain ⟨body, tail, hshowns, hbody, hn⟩ := exists_body_of_referenceLength hlength
  have hblank : ' ' ∉ '&' :: (body ++ [';']) := by
    simpa using fun hmem => by rcases isAlphanum_of_mem_body hbody ' ' hmem with h | h <;> cases h
  obtain ⟨rest, rfl⟩ := h.exists_of_showns_eq (v := tail) hblank (by simpa using hshowns)
  refine ⟨body, rest, rfl, hbody, ?_⟩
  rw [List.length_append, List.length_singleton]
  omega

/-- **Going through cells as the pass over references does.** -/
theorem IsRaw.induction {motive : (cs : List Cell) → IsRaw cs → Prop} (nil : ∀ h, motive [] h)
    (skip : ∀ c cs h h', referenceLength (showns (c :: cs)) = 0 → motive cs h → motive (c :: cs) h')
    (reference : ∀ body cs h h', isReferenceBody body = true → motive cs h →
      motive (('&' :: (body ++ [';'])).map plain ++ cs) h') (cs : List Cell) (h : IsRaw cs) :
    motive cs h := by
  induction cs using Text.scan_induction fun cs => referenceLength (showns cs) with
  | nil => exact nil h
  | skip c cs hzero ih => exact skip c cs h.tail h hzero (ih h.tail)
  | token c cs n hlength ih =>
    obtain ⟨body, rest, hcs, hbody, rfl⟩ := h.exists_of_referenceLength hlength
    obtain ⟨rfl, htail⟩ := List.cons.inj hcs
    have hdrop : cs.drop (body ++ [';']).length = rest := by
      rw [htail]
      exact List.drop_left' (by simp)
    rw [hdrop] at ih
    subst htail
    have hrest : IsRaw rest := fun c hc => h c (List.mem_cons_of_mem _ (List.mem_append_right _ hc))
    exact reference body rest hrest h hbody (ih hrest)

/-- What becomes of a reference: it is decoded, or left as it is. -/
theorem decodedRow_reference {body : Text} (hbody : isReferenceBody body = true) (cs : List Cell) :
    decodedRow (('&' :: (body ++ [';'])).map plain ++ cs) =
      ((decode? body).elim (('&' :: (body ++ [';'])).map plain)
        fun d => [⟨'&' :: (body ++ [';']), [d]⟩]) ++ decodedRow cs := by
  have hshowns : showns (plain '&' :: ((body ++ [';']).map plain ++ cs)) =
      '&' :: (body ++ ';' :: showns cs) := by
    simp [plain]
  have hlength : referenceLength (showns (plain '&' :: ((body ++ [';']).map plain ++ cs))) =
      ((body ++ [';']).map plain).length + 1 := by
    rw [hshowns, referenceLength_reference hbody]
    simp
  have htoken : plain '&' :: (body ++ [';']).map plain = ('&' :: (body ++ [';'])).map plain := rfl
  rw [decodedRow, List.map_cons, List.cons_append, Stretch.divide_cons_of_eq_succ hlength,
    List.take_succ_cons, List.take_left, List.drop_left, List.flatMap_cons, htoken,
    Cell.showns_map_plain, decodeToken, decodeReference?_body]
  cases decode? body with
  | none => rfl
  | some d => rw [Stretch.results, Cell.raws_map_plain]; rfl

theorem reference_ne_plain (body : Text) (shown : Text) (c : Char) :
    (⟨'&' :: (body ++ [';']), shown⟩ : Cell) ≠ plain c := by
  intro h
  have := congrArg List.length (congrArg Cell.raw h)
  simp [plain] at this

/-- Copied characters in front of an ampersand are left as they were. -/
theorem IsRaw.exists_of_decodedRow_eq (h : IsRaw cs) {u : Text} {back : List Cell} (hu : '&' ∉ u)
    (hrow : decodedRow cs = u.map plain ++ back) : ∃ rest, cs = u.map plain ++ rest := by
  induction cs, h using IsRaw.induction generalizing u with
  | nil _ =>
    obtain ⟨hnil, -⟩ := List.append_eq_nil_iff.mp hrow.symm
    exact ⟨[], by rw [hnil]; rfl⟩
  | skip c cs _ _ hzero ih =>
    obtain _ | ⟨x, u⟩ := u
    · exact ⟨_, rfl⟩
    rw [decodedRow_cons_of_eq_zero hzero] at hrow
    obtain ⟨rfl, htail⟩ := List.cons.inj hrow
    obtain ⟨rest, rfl⟩ := ih (fun hmem => hu (List.mem_cons_of_mem x hmem)) htail
    exact ⟨rest, rfl⟩
  | reference body cs _ _ hbody ih =>
    obtain _ | ⟨x, u⟩ := u
    · exact ⟨_, rfl⟩
    rw [decodedRow_reference hbody] at hrow
    cases hdecode : decode? body with
    | none =>
      rw [hdecode] at hrow
      have hx := Cell.plain_inj (List.head_eq_of_cons_eq hrow)
      exact absurd (hx ▸ List.mem_cons_self) hu
    | some d =>
      rw [hdecode] at hrow
      exact absurd (List.head_eq_of_cons_eq hrow) (reference_ne_plain body [d] x)

/-- **The pass over references leaves none.** -/
theorem IsRaw.isSettled (h : IsRaw cs) : Cell.IsSettled (decodedRow cs) := by
  induction cs, h using IsRaw.induction with
  | nil _ => trivial
  | skip c cs hcs _ hzero ih =>
    rw [decodedRow_cons_of_eq_zero hzero]
    refine ⟨fun body back heq => ?_, ih⟩
    obtain ⟨rfl, hrow⟩ := List.cons.inj heq
    cases hdecode : decode? body with
    | none => rfl
    | some d =>
      have hbody := isReferenceBody_of_decode hdecode
      have hamp : '&' ∉ body ++ [';'] := by simpa using ampersand_not_mem_body hbody
      obtain ⟨rest, rfl⟩ := hcs.exists_of_decodedRow_eq hamp hrow
      have hshowns : showns (plain '&' :: ((body ++ [';']).map plain ++ rest)) =
          '&' :: (body ++ ';' :: showns rest) := by
        simp [plain]
      rw [hshowns, referenceLength_reference hbody] at hzero
      cases hzero
  | reference body cs _ _ hbody ih =>
    rw [decodedRow_reference hbody]
    cases hdecode : decode? body with
    | some d =>
      exact ⟨fun body' back heq =>
        absurd (List.head_eq_of_cons_eq heq) (reference_ne_plain body [d] '&'), ih⟩
    | none =>
      have hamp : '&' ∉ body ++ [';'] := by simpa using ampersand_not_mem_body hbody
      refine ⟨fun body' back heq => ?_, .map_plain_append hamp ih⟩
      cases hdecode' : decode? body' with
      | none => rfl
      | some d =>
        have hraws := congrArg raws (List.tail_eq_of_cons_eq heq)
        simp only [List.append_eq, Cell.raws_append, Cell.raws_map_plain, List.append_assoc,
          List.cons_append, List.nil_append] at hraws
        obtain rfl := body_eq hraws (semicolon_not_mem_body hbody)
          (semicolon_not_mem_body (isReferenceBody_of_decode hdecode'))
        exact hdecode'.symm.trans hdecode

/-- **A cell that the pass over references leaves** is decoded, or it was there before. -/
theorem IsRaw.decodedRow_cases (h : IsRaw cs) {as bs : List Cell} {c : Cell}
    (hrow : decodedRow cs = as ++ c :: bs) :
    c.IsDecoded ∨ ∃ as' bs', cs = as' ++ c :: bs' ∧ raws as' = raws as := by
  rcases Stretch.flatMap_results_cases hrow with ⟨as', bs', hcells, hraws⟩ |
    ⟨front, ms, r, back, hdivide, rfl, -⟩
  · rw [Stretch.flatMap_cells_divide] at hcells
    exact .inr ⟨as', bs', hcells, hraws⟩
  have hg : ⟨ms, .edit (some r)⟩ ∈ Stretch.divide referenceLength decodeToken cs := by
    simp [hdivide]
  rcases Stretch.mem_divide_cases hg with hleave | ⟨c, rest, n, hsuffix, hlength, hcells⟩
  · cases hleave
  have hraw : IsRaw (c :: rest) := fun c' hc' => h c' (hsuffix.subset hc')
  obtain ⟨body, rest', hcs, hbody, rfl⟩ := hraw.exists_of_referenceLength hlength
  have htake :
      (c :: rest).take ((body ++ [';']).length + 1) = ('&' :: (body ++ [';'])).map plain := by
    rw [hcs]
    exact List.take_left' (by simp)
  rw [htake, Cell.showns_map_plain, decodeToken, decodeReference?_body] at hcells
  obtain ⟨rfl, hr⟩ := Stretch.mk.inj hcells
  cases hdecode : decode? body with
  | none => simp [hdecode] at hr
  | some d =>
    simp only [hdecode, Treatment.edit.injEq, Option.some.injEq] at hr
    rw [hr, Cell.raws_map_plain]
    exact .inl (.reference hdecode)

/-! ## Where blanks stand for something else -/

/-- A cell that the pass over tags leaves is a copied character, or a tag stands there. -/
theorem tagRow_cases {t : Text} {as bs : List Cell} {c : Cell}
    (h : (tagStretches t).flatMap Stretch.results = as ++ c :: bs) :
    (∃ d, c = plain d) ∨ ∃ o ∈ tags t, o.start = size (raws as) ∧ c = ⟨o.text, [' ']⟩ := by
  have hcells : (tagStretches t).flatMap Stretch.cells = t.map plain :=
    Stretch.flatMap_cells_divide _ _ _
  rcases Stretch.flatMap_results_cases h with ⟨as', bs', hrow, -⟩ |
    ⟨front, ms, r, back, hstretches, rfl, hraws⟩
  · have hmem : c ∈ t.map plain := by
      rw [← hcells, hrow]
      simp
    obtain ⟨d, -, rfl⟩ := List.mem_map.mp hmem
    exact .inl ⟨d, rfl⟩
  · have hmark : ⟨size (raws as), size (raws as) + size (raws ms), showns ms, some r,
        some .xmlTag⟩ ∈ Stretch.marks (some .xmlTag) raws 0 (tagStretches t) := by
      rw [hstretches, Stretch.marks_append, hraws, Nat.zero_add]
      exact List.mem_append_right _ List.mem_cons_self
    rw [marks_tagStretches] at hmark
    obtain ⟨o, ho, hmark⟩ := List.mem_map.mp hmark
    simp only [tagMark, Mark.mk.injEq, Option.some.injEq] at hmark
    obtain ⟨hstart, -, htext, rfl, -⟩ := hmark
    have hplain : ∃ u : Text, ms = u.map plain := by
      rw [hstretches, List.flatMap_append, List.flatMap_cons] at hcells
      obtain ⟨_, _, -, -, hrest⟩ := List.map_eq_append_iff.mp hcells.symm
      obtain ⟨u, _, -, hu, -⟩ := List.map_eq_append_iff.mp hrest
      exact ⟨u, hu.symm⟩
    obtain ⟨u, rfl⟩ := hplain
    rw [Cell.showns_map_plain] at htext
    exact .inr ⟨o, ho, hstart, by rw [Cell.raws_map_plain, htext]⟩

/-- A cell that the pass over tabs and line feeds leaves was there before, or one of these stands
there. -/
theorem blankRow_cases {t : Text} {as bs : List Cell} {c : Cell}
    (h : (blankStretches t).flatMap Stretch.results = as ++ c :: bs) :
    (∃ b, isBlankTag b = true ∧ c = ⟨[b], [' ']⟩) ∨
      ∃ as' bs', (tagStretches t).flatMap Stretch.results = as' ++ c :: bs' ∧
        raws as' = raws as := by
  rcases Stretch.flatMap_results_cases h with ⟨as', bs', hrow, hraws⟩ |
    ⟨front, ms, r, back, hstretches, rfl, -⟩
  · rw [blankStretches, Stretch.flatMap_cells_divide] at hrow
    exact .inr ⟨as', bs', hrow, hraws⟩
  · have hg : ⟨ms, .edit (some r)⟩ ∈ blankStretches t := by simp [hstretches]
    obtain ⟨hr, b, hb, rfl⟩ := eq_of_mem_blankStretches hg
    obtain rfl := Option.some.inj hr
    exact .inl ⟨b, hb, rfl⟩

theorem isRaw_tagRow (t : Text) : IsRaw ((tagStretches t).flatMap Stretch.results) :=
  fun _ hc => eq_plain_or_blank hc

theorem isRaw_blankRow (t : Text) : IsRaw ((blankStretches t).flatMap Stretch.results) := by
  intro c hc
  obtain ⟨as, bs, hrow⟩ := List.append_of_mem hc
  rcases blankRow_cases hrow with ⟨b, -, rfl⟩ | ⟨as', bs', hrow', -⟩
  · exact .inr rfl
  · exact eq_plain_or_blank (t := t) (hrow' ▸ List.mem_append_right _ List.mem_cons_self)

/-- **What a cell of which words are made stands for**: a character or a reference, a tab or a line
feed, or a tag. -/
theorem cells_cases {t : Text} {as bs : List Cell} {c : Cell} (h : cells t = as ++ c :: bs) :
    c.IsDecoded ∨ (∃ b, isBlankTag b = true ∧ c = ⟨[b], [' ']⟩) ∨
      ∃ o ∈ tags t, o.start = size (raws as) ∧ c = ⟨o.text, [' ']⟩ := by
  rcases (isRaw_blankRow t).decodedRow_cases h with hdecoded | ⟨as', bs', hrow, hraws⟩
  · exact .inl hdecoded
  rcases blankRow_cases hrow with hblank | ⟨as'', bs'', hrow', hraws'⟩
  · exact .inr (.inl hblank)
  rcases tagRow_cases hrow' with ⟨d, rfl⟩ | ⟨o, ho, hstart, rfl⟩
  · exact .inl (.plain d)
  · exact .inr (.inr ⟨o, ho, by rw [hstart, hraws', hraws], rfl⟩)

end Markup

/-! ## Words that are free of markup -/

/-- Whether the stretch of a text that a mark covers has no tag, tab or line feed in it. -/
structure Accepted.IsFreeOfMarkup (t : Text) (a : Accepted) : Prop where
  tags : ∀ o ∈ Markup.tags t, ¬ (a.mark.start ≤ o.start ∧ o.stop ≤ a.mark.stop)
  blanks : ∀ c ∈ slice t a.mark.start a.mark.stop, Markup.isBlankTag c = false

/-- A mark of a word stands for what it covers, decoded, if that is free of markup. -/
theorem Draft.IsRead.unescape_slice {d : Draft} {t : Text} {groups : List (List Cell)}
    (h : d.IsRead t groups) {m : Mark}
    (hm : m ∈ Stretch.marks (some .word) raws 0 (groups.map Stretch.ofGroup))
    (hfree : Accepted.IsFreeOfMarkup t ⟨m, .word⟩) :
    Markup.unescape (slice t m.start m.stop) = m.text := by
  obtain ⟨front, group, back, hgroups, -, rfl⟩ := Stretch.mem_marks_ofGroup.mp hm
  have hcells : Markup.cells t = front.flatten ++ group ++ back.flatten := by
    rw [← h.flatten_eq, hgroups]
    simp
  have hslice : slice t (size (raws front.flatten))
      (size (raws front.flatten) + size (raws group)) = raws group := by
    have hsource := Markup.raws_cells t
    rw [hcells, Cell.raws_append, Cell.raws_append] at hsource
    rw [← hsource]
    exact Text.slice_size _ _ _
  have hsettled : Cell.IsSettled (Markup.cells t) := (Markup.isRaw_blankRow t).isSettled
  rw [hcells] at hsettled
  rw [hslice]
  refine Cell.unescape_raws (fun c hc => ?_) hsettled.left.right
  obtain ⟨before, behind, rfl⟩ := List.append_of_mem hc
  have hrow : Markup.cells t = (front.flatten ++ before) ++ c :: (behind ++ back.flatten) := by
    simp [hcells]
  rcases Markup.cells_cases hrow with hdecoded | ⟨b, hb, rfl⟩ | ⟨o, ho, hstart, rfl⟩
  · exact hdecoded
  · have := hfree.blanks b (by rw [hslice]; simp)
    cases hb.symm.trans this
  · refine absurd ⟨?_, ?_⟩ (hfree.tags o ho) <;>
      simp only [Occurrence.stop, hstart, Cell.raws_append, Cell.raws_cons, Text.size_append] <;>
      omega

/-- **References are decoded alike in the working text and in the source.** The pass over references
alone decodes a text. By the standard passes any text is tokenized; there is a word for each mark
accepted as one, in their order, the placeholder of the word is what the mark covered in the working
text, and the text of the word what it covers in the source, decoded. If that has no tag, tab or
line feed in it, they are the same. -/
theorem references_agree (t : Text) :
    (∃ d, (Draft.ofText t).run .entities = .ok d ∧ d.buffer = Markup.unescape t) ∧
    ∃ d s, (Draft.ofText t).runAll Pass.standard = .ok d ∧ tokenize t = .ok s ∧
      List.Forall₂ (fun a w => w.placeholder = a.mark.text ∧
          w.text = some (Markup.unescape (slice t a.mark.start a.mark.stop)) ∧
          (a.IsFreeOfMarkup t → w.text = some w.placeholder))
        ((Mark.accepted d.marks).filter fun a => a.role = .word) s.words := by
  constructor
  · obtain ⟨d, hrun, hrow, -⟩ := (Draft.IsRow.ofText t).run_divide
      (Cell.isGlyph_of_mem_map_plain t) (fun r => (Markup.isSingle_decodeToken r).ne)
      Pass.edits_entities
    refine ⟨d, hrun, ?_⟩
    rw [hrow.buffer_eq, Stretch.showns_results_divide (Cell.isGlyph_of_mem_map_plain t),
      funext Markup.shown_decodeToken, Cell.showns_map_plain, Markup.rewrite_references]
  · obtain ⟨d, groups, hrun, h⟩ := Draft.exists_isRead t
    obtain ⟨s, hs, hlaid⟩ :=
      Draft.exists_build_areLaidOut .standard h.source_eq fun a ha => h.isSound ha
    refine ⟨d, s, hrun, by rw [tokenize, tokenizeWith, hrun]; exact hs, ?_⟩
    have hmarks : ∀ a ∈ (Mark.accepted d.marks).filter fun a => a.role = .word,
        a.mark.placeholder = a.mark.text ∧ (a.IsFreeOfMarkup t →
          Markup.unescape (slice t a.mark.start a.mark.stop) = a.mark.text) := by
      intro a ha
      rw [h.filter_accepted_word] at ha
      obtain ⟨m, hm, rfl⟩ := List.mem_map.mp ha
      obtain ⟨front, group, back, -, -, rfl⟩ := Stretch.mem_marks_ofGroup.mp hm
      exact ⟨rfl, h.unescape_slice hm⟩
    have hmade := Accepted.words_of_makes hlaid.made
    rw [Sentence.filterMap_word?_tokens] at hmade
    have hpaired := List.forall₂_eq_eq_eq.symm ▸ hmade.symm
    rw [List.forall₂_map_left_iff, List.forall₂_map_right_iff] at hpaired
    refine ((List.forall₂_and_left _ _).mpr ⟨hmarks, hpaired⟩).imp ?_
    rintro a w ⟨⟨hplaceholder, hfree⟩, hpair⟩
    obtain ⟨hword, htext⟩ := Prod.mk.inj hpair
    refine ⟨hword.symm.trans hplaceholder, htext.symm, fun hmarkup => ?_⟩
    rw [← htext, ← hword, hfree hmarkup, hplaceholder]

end MarkupTransfer
