import Mathlib
import MarkupTransfer.Proofs.Draft.Tokens
import MarkupTransfer.Proofs.Tokenize.KeptTags
/-!
# Which words a sentence has

Three passes rewrite the working text one after another, and words are marked in what they leave,
to be read from the source in the end. The same words come of rewriting the text at once: its
segments that are not blank are the words, each is read from the part of the source that its segment
maps back to, and these parts make up the source.

* `Draft.sourceOf`: the part of the source that a stretch of the working text maps back to.
* `IsRow.map_sourceOf`: where groups of cells map back to.
* `Accepted.words_of_makes`: the words of a row of tokens.
* `words_tokenize`: the words of the sentence that a text becomes.
-/

namespace MarkupTransfer

open Cell (raws showns)
open Text (size slice)

/-! ## Back to the source -/

theorem Cell.raws_flatten (groups : List (List Cell)) :
    raws groups.flatten = (groups.map raws).flatten := by
  induction groups with
  | nil => rfl
  | cons group groups ih =>
    rw [List.flatten_cons, raws_append, ih, List.map_cons, List.flatten_cons]

/-- The part of a source that a stretch of the working text maps back to. -/
def Draft.sourceOf (d : Draft) (source : Text) (p : Nat × Text) : Text :=
  slice source (d.provenance.startOf p.1) (d.provenance.stopFrom p.1 (p.1 + size p.2))

theorem Draft.IsRow.sourceOf_eq {d : Draft} {front group back : List Cell}
    (h : d.IsRow (front ++ group ++ back)) :
    d.sourceOf (raws (front ++ group ++ back)) (size (showns front), showns group) =
      raws group := by
  have hstart : d.provenance.startOf (size (showns front)) = size (raws front) :=
    startOf_eq (by simpa using h)
  have hstop := h.stopFrom_eq
  rw [Cell.showns_append, Text.size_append, Cell.raws_append, Text.size_append] at hstop
  rw [sourceOf, hstart, hstop, Cell.raws_append, Cell.raws_append]
  exact Text.slice_size (raws front) (raws group) (raws back)

/-- **Groups of cells map back to what they stand for.** Some of them may be picked by what they
show. -/
theorem Draft.IsRow.map_sourceOf {d : Draft} (pick : Text → Bool) {front : List Cell}
    {groups : List (List Cell)} (h : d.IsRow (front ++ groups.flatten)) :
    ((Text.placed (size (showns front)) (groups.map showns)).filter fun p => pick p.2).map
        (d.sourceOf (raws (front ++ groups.flatten))) =
      (groups.filter fun group => pick (showns group)).map raws := by
  induction groups generalizing front with
  | nil => rfl
  | cons group groups ih =>
    rw [List.flatten_cons, ← List.append_assoc] at h ⊢
    have hrest := ih h
    rw [Cell.showns_append, Text.size_append] at hrest
    rw [List.map_cons, Text.placed, List.filter_cons, List.filter_cons]
    split
    · rw [List.map_cons, List.map_cons, h.sourceOf_eq, hrest]
    · exact hrest

/-! ## Words of a sentence -/

/-- **The words of a row of tokens** are made of the marks that ask for words. -/
theorem Accepted.words_of_makes {source : Text} {as : List Accepted} {ts : List Token}
    (h : List.Forall₂ (Makes source) as ts) :
    (ts.filterMap Token.word?).map (fun w => (w.placeholder, w.text)) =
      (as.filter fun a => a.role = .word).map fun a =>
        (a.mark.placeholder, some (Markup.unescape (slice source a.mark.start a.mark.stop))) := by
  induction h with
  | nil => rfl
  | @cons a token as ts hmakes _ ih =>
    cases token with
    | word w =>
      obtain ⟨hrole, hplaceholder, htext⟩ := hmakes
      rw [Token.filterMap_word?_word, List.map_cons, ih, List.filter_cons_of_pos (by simp [hrole]),
        List.map_cons, hplaceholder, htext]
    | tag t =>
      have hrole : a.role ≠ .word := by
        rw [hmakes.1]
        split <;> simp
      rw [Token.filterMap_word?_tag, ih, List.filter_cons_of_neg (by simp [hrole])]

/-- The marks of groups have what the groups show as their placeholders, and cover what they stand
for. -/
theorem Stretch.map_marks_ofGroup (front : List Cell) (groups : List (List Cell)) :
    (marks (some .word) raws (size (raws front)) (groups.map ofGroup)).map
        (fun m => (m.placeholder, slice (raws (front ++ groups.flatten)) m.start m.stop)) =
      (groups.filter fun group => !Text.isBlank (showns group)).map
        fun group => (showns group, raws group) := by
  induction groups generalizing front with
  | nil => rfl
  | cons group groups ih =>
    have hrest := ih (front ++ group)
    rw [Cell.raws_append front, Text.size_append] at hrest
    rw [List.flatten_cons, ← List.append_assoc, List.map_cons, ofGroup, List.filter_cons]
    cases hblank : Text.isBlank (showns group) with
    | true => simpa [marks] using hrest
    | false =>
      have hslice : slice (raws (front ++ group ++ groups.flatten)) (size (raws front))
          (size (raws front) + size (raws group)) = raws group := by
        rw [Cell.raws_append, Cell.raws_append, Text.slice_size]
      simp only [Bool.false_eq_true, if_false, Bool.not_false, if_true, marks, List.map_cons,
        Mark.placeholder, hslice]
      exact congrArg _ hrest

/-- **The words that a text becomes are those of the text rewritten at once.** The passes in front
of the words leave the text in which a blank takes the place of every tag, then of every tab and
line feed, and then references are decoded. Its segments that are not blank are the words of the
sentence, every one of them, in order: each is the placeholder of a word, and the part of the source
that it maps back to, decoded, is its text. The parts that the segments map back to make up the
source. -/
theorem words_tokenize (t : Text) : ∃ d s,
    (Draft.ofText t).runAll [.xmlTags, .whitespaceTags, .entities] = .ok d ∧
      d.buffer = Markup.shown t ∧ tokenize t = .ok s ∧
      s.words.map Word.placeholder =
        (Text.segments (Markup.shown t)).filter (fun u => !Text.isBlank u) ∧
      s.words.map Word.text =
        ((Text.placed 0 (Text.segments (Markup.shown t))).filter fun p => !Text.isBlank p.2).map
          (fun p => some (Markup.unescape (d.sourceOf t p))) ∧
      ((Text.placed 0 (Text.segments (Markup.shown t))).map (d.sourceOf t)).flatten = t := by
  obtain ⟨d, hrun, hrow, -⟩ := Draft.exists_isRow_cells t
  obtain ⟨d', groups, hrun', h⟩ := Draft.exists_isRead t
  obtain ⟨s, hs, hlaid⟩ :=
    Draft.exists_build_areLaidOut .standard h.source_eq fun a ha => h.isSound ha
  have hrow' : d.IsRow ([] ++ groups.flatten) := by rwa [List.nil_append, h.flatten_eq]
  have hraws : raws ([] ++ groups.flatten) = t := by
    rw [List.nil_append, h.flatten_eq, Markup.raws_cells]
  have hmarks := Stretch.map_marks_ofGroup [] groups
  rw [hraws] at hmarks
  have hslices := fun pick => hrow'.map_sourceOf pick
  rw [hraws] at hslices
  have hwords : s.words.map (fun w => (w.placeholder, w.text)) =
      (groups.filter fun group => !Text.isBlank (showns group)).map
        fun group => (showns group, some (Markup.unescape (raws group))) := by
    have hmade := Accepted.words_of_makes hlaid.made
    rw [Sentence.tokens, Sentence.filterMap_word?_interleave, h.filter_accepted_word,
      List.map_map] at hmade
    have hdecoded := congrArg (List.map (Prod.map id fun u => some (Markup.unescape u))) hmarks
    rw [List.map_map, List.map_map] at hdecoded
    exact hmade.trans hdecoded
  have hplaceholders := congrArg (List.map Prod.fst) hwords
  have htexts := congrArg (List.map Prod.snd) hwords
  rw [List.map_map, List.map_map] at hplaceholders htexts
  refine ⟨d, s, hrun, ?_, ?_, ?_, ?_, ?_⟩
  · rw [hrow.buffer_eq, Markup.showns_cells]
  · rw [tokenize, tokenizeWith, hrun']
    exact hs
  · rw [← h.showns_eq, List.filter_map]
    exact hplaceholders
  · have hpicked := congrArg (List.map fun u => some (Markup.unescape u))
      (hslices fun u => !Text.isBlank u)
    rw [List.map_map, List.map_map, h.showns_eq] at hpicked
    exact htexts.trans hpicked.symm
  · have hall := hslices fun _ => true
    rw [List.filter_true, List.filter_true, h.showns_eq] at hall
    calc ((Text.placed 0 (Text.segments (Markup.shown t))).map (d.sourceOf t)).flatten
        = (groups.map raws).flatten := congrArg List.flatten hall
      _ = raws groups.flatten := (Cell.raws_flatten groups).symm
      _ = t := hraws

end MarkupTransfer
