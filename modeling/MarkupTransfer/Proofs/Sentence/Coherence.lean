import Mathlib.Data.List.Chain
import MarkupTransfer.Sentence.Render
import MarkupTransfer.Proofs.Space
import MarkupTransfer.Proofs.Sentence.Settle
/-!
# Settled sentences are coherent

The last step of settling writes to both sides of a boundary what `Space.mergeSpace` makes of the
two spaces found there. The right space of a token is read before it is written, and its left space
has been written with the boundary before, so that in the row that is left all neighbours agree.
What is written beside a tag has characters, and merging a written space with itself gives it back:
a settled sentence may be shown with its spaces as they stand, or with every boundary merged anew.

* `Token.Agrees`: what two neighbours of a settled row record of their boundary.
* `isChain_agreeSpaces`: the last step of settling makes all neighbours agree.
* `settle_coherent`: what settling establishes and what it leaves alone.
* `markup_settle_eq_flatMap`: a settled sentence is shown token by token.
* `markupAfter_of_isChain`, `markup_settle_merged`: the two ways to show a settled sentence.
-/

namespace MarkupTransfer

open Space (mergeSpace)

/-- What two neighbours of a settled row record of their boundary: the same space, and beside a tag
none without characters. -/
structure Token.Agrees (x y : Token) : Prop where
  same : x.rightSpace = y.leftSpace
  virtual : x.rightSpace = some .virtual → x.cls = .word ∧ y.cls = .word

/-- Where neighbours agree, what they record is what is made of it. -/
theorem Token.Agrees.mergeSpace_eq {x y : Token} (h : x.Agrees y) :
    mergeSpace none x.rightSpace y.leftSpace x.cls y.cls = y.leftSpace := by
  rw [h.same]
  exact Space.mergeSpace_self (h.same ▸ h.virtual)

namespace Sentence

open Token (Agrees)

variable {placeholders : Bool}

/-! ## The last step -/

theorem head?_agreeAfter (previous : Token) (ts : List Token) :
    ∀ x ∈ (agreeAfter previous ts).head?,
      x.leftSpace = previous.leftSpace ∧ x.cls = previous.cls := by
  cases ts with
  | nil =>
    intro x hx
    obtain rfl := Option.some.inj hx
    exact ⟨rfl, rfl⟩
  | cons y ts =>
    intro x hx
    obtain rfl := Option.some.inj hx
    simp

theorem isChain_agreeAfter (previous : Token) (ts : List Token) :
    (agreeAfter previous ts).IsChain Agrees := by
  induction ts generalizing previous with
  | nil => exact .singleton _
  | cons y ts ih =>
    rw [agreeAfter]
    refine (ih _).cons fun x hx => ?_
    obtain ⟨hleft, hkind⟩ := head?_agreeAfter _ ts x hx
    refine ⟨?_, fun hvirtual => ?_⟩
    · rw [hleft, Token.rightSpace_withRightSpace, Token.leftSpace_withLeftSpace]
    · rw [Token.rightSpace_withRightSpace] at hvirtual
      rw [hkind, Token.cls_withRightSpace, Token.cls_withLeftSpace]
      exact Space.eq_word_of_mergeSpace_eq_virtual hvirtual

/-- **The last step of settling makes all neighbours agree.** -/
theorem isChain_agreeSpaces (ts : List Token) : (agreeSpaces ts).IsChain Agrees := by
  cases ts with
  | nil => exact .nil
  | cons x ts => exact isChain_agreeAfter _ ts

/-! ## The outer edges -/

/-- The space on the right of the last token. -/
def endSpace (ts : List Token) : Option Space := ts.getLast?.bind Token.rightSpace

theorem endSpace_cons {ts : List Token} (h : ts ≠ []) (x : Token) :
    endSpace (x :: ts) = endSpace ts := by
  rw [endSpace, List.getLast?_cons_of_ne_nil h, endSpace]

theorem endSpace_withLeftSpace (space : Option Space) (x : Token) (ts : List Token) :
    endSpace (x.withLeftSpace space :: ts) = endSpace (x :: ts) := by
  cases ts with
  | nil => exact Token.rightSpace_withLeftSpace space x
  | cons y ts => rw [endSpace_cons (List.cons_ne_nil y ts), endSpace_cons (List.cons_ne_nil y ts)]

theorem agreeAfter_ne_nil (previous : Token) (ts : List Token) : agreeAfter previous ts ≠ [] := by
  cases ts <;> exact List.cons_ne_nil _ _

theorem shiftAfter_ne_nil (previous : Token) (ts : List Token) : shiftAfter previous ts ≠ [] := by
  rcases ts with _ | ⟨_ | _, _⟩
  · exact List.cons_ne_nil _ _
  · exact List.cons_ne_nil _ _
  · rw [shiftAfter]
    split <;> exact List.cons_ne_nil _ _

/-- Making neighbours agree leaves the outer edge on the right alone. -/
theorem endSpace_agreeAfter (previous : Token) (ts : List Token) :
    endSpace (agreeAfter previous ts) = endSpace (previous :: ts) := by
  induction ts generalizing previous with
  | nil => rfl
  | cons y ts ih =>
    rw [agreeAfter, endSpace_cons (agreeAfter_ne_nil _ _), ih, endSpace_withLeftSpace,
      endSpace_cons (List.cons_ne_nil y ts)]

/-- Moving spaces past tags trims the outer edge on the right. -/
theorem endSpace_shiftAfter (previous : Token) (ts : List Token) :
    endSpace (shiftAfter previous ts) = none := by
  induction ts generalizing previous with
  | nil => exact Token.rightSpace_withRightSpace none previous
  | cons y ts ih =>
    cases y with
    | word w => rw [shiftAfter, endSpace_cons (shiftAfter_ne_nil _ _), ih]
    | tag t =>
      rw [shiftAfter]
      split <;> rw [endSpace_cons (shiftAfter_ne_nil _ _), ih]

theorem endSpace_shiftSpaces (ts : List Token) : endSpace (shiftSpaces ts) = none := by
  rcases ts with _ | ⟨_ | _, _⟩
  · rfl
  · exact endSpace_shiftAfter _ _
  · exact endSpace_shiftAfter _ _

/-- **A settled row has no space at its outer edges.** -/
theorem edges_agreeSpaces_shiftSpaces (ts : List Token) :
    (agreeSpaces (shiftSpaces ts)).head?.bind Token.leftSpace = none ∧
      endSpace (agreeSpaces (shiftSpaces ts)) = none := by
  constructor
  · cases shiftSpaces ts with
    | nil => rfl
    | cons x us =>
      obtain ⟨y, rest, hrow⟩ := List.exists_cons_of_ne_nil
        (agreeAfter_ne_nil (x.withLeftSpace none) us)
      obtain ⟨hleft, -⟩ := head?_agreeAfter (x.withLeftSpace none) us y (by simp [hrow])
      rw [agreeSpaces, hrow]
      exact hleft.trans (Token.leftSpace_withLeftSpace none x)
  · have hshift := endSpace_shiftSpaces ts
    cases hrow : shiftSpaces ts with
    | nil => rfl
    | cons x us => rw [agreeSpaces, endSpace_agreeAfter, endSpace_withLeftSpace, ← hrow, hshift]

/-! ## The sentence -/

theorem settle_of_tags_eq_nil {s : Sentence} (htags : s.tags = []) : s.settle = s := by
  rw [settle, htags]
  rfl

theorem annotations_settle (s : Sentence) : s.settle.annotations = s.annotations := by
  unfold settle
  split <;> rfl

theorem spaceConsistent_settle {s : Sentence} (htags : s.tags ≠ []) :
    s.settle.spaceConsistent = true := by
  have hsome : s.tags.isEmpty = false := by simpa using htags
  rw [settle, hsome]
  rfl

/-- Settling leaves every token where it is. -/
theorem spaceless_tokens_settle (s : Sentence) :
    s.settle.tokens.map Token.spaceless = s.tokens.map Token.spaceless := by
  have hposition : ∀ t : Tag, t.spaceless.position = t.position := fun _ => rfl
  obtain ⟨hwords, htags⟩ := s.spaceless_settle
  unfold tokens Token.spaceless
  rw [← interleave_map _ hposition, ← interleave_map _ hposition, hwords, htags]

theorem isChain_tokens_settle {s : Sentence} (htags : s.tags ≠ []) :
    s.settle.tokens.IsChain Agrees := by
  rw [tokens_settle htags]
  exact isChain_agreeSpaces _

theorem edges_tokens_settle {s : Sentence} (htags : s.tags ≠ []) :
    s.settle.tokens.head?.bind Token.leftSpace = none ∧ endSpace s.settle.tokens = none := by
  rw [tokens_settle htags]
  exact edges_agreeSpaces_shiftSpaces _

/-- **Settling makes the spaces of a sentence with tags agree, and changes nothing else.** Every two
neighbours record the same space of their boundary, beside a tag none without characters; nothing is
recorded at the outer edges; and the sentence is known to be consistent. Whatever the sentence, its
tokens stay in their order and its words and tags in theirs, all of them as they were but for the
spaces beside them, and its annotations stay. A sentence without tags is not touched. -/
theorem settle_coherent (s : Sentence) :
    (s.tags ≠ [] → s.settle.tokens.IsChain Agrees ∧
      s.settle.tokens.head?.bind Token.leftSpace = none ∧
      s.settle.tokens.getLast?.bind Token.rightSpace = none ∧
      s.settle.spaceConsistent = true) ∧
    s.settle.tokens.map Token.spaceless = s.tokens.map Token.spaceless ∧
    s.settle.words.map Word.spaceless = s.words.map Word.spaceless ∧
    s.settle.tags.map Tag.spaceless = s.tags.map Tag.spaceless ∧
    s.settle.annotations = s.annotations ∧
    (s.tags = [] → s.settle = s) := by
  refine ⟨fun htags => ?_, s.spaceless_tokens_settle, s.spaceless_settle.1, s.spaceless_settle.2,
    s.annotations_settle, settle_of_tags_eq_nil⟩
  obtain ⟨hfront, hback⟩ := edges_tokens_settle htags
  exact ⟨isChain_tokens_settle htags, hfront, hback, spaceConsistent_settle htags⟩

/-- Three words of which the second lost a space to a tag, and two tags that are not kept in the
order of their positions. -/
def unsettled : Sentence where
  words :=
    [.ofText none ['a'] none (some .virtual),
      { Word.ofText none ['b'] (some .virtual) none with tagRightSpaceRequired := true },
      .ofText none ['c'] (some (.literal ['\n'])) (some .blank)]
  tags :=
    [⟨.xml, ['i'], ['<', '/', 'i', '>'], some .virtual, none, 2, .closing, false⟩,
      ⟨.xml, ['b'], ['<', 'b', '>'], none, some .virtual, 1, .opening, false⟩]
  spaceConsistent := false
  annotations := .empty

theorem settle_coherent_unsettled :
    unsettled.tags ≠ [] ∧ unsettled.settle.tokens.IsChain Agrees ∧
    unsettled.settle.tokens.map Token.leftSpace =
      [none, some .virtual, some .blank, none, some (.literal ['\n'])] ∧
    unsettled.settle.tokens.getLast?.bind Token.rightSpace = none ∧
    unsettled.settle.tags.map Tag.spaceless = unsettled.tags.map Tag.spaceless := by
  have htags : unsettled.tags ≠ [] := by decide
  obtain ⟨hchain, -, hback, -⟩ := (settle_coherent unsettled).1 htags
  exact ⟨htags, hchain, by decide, hback, (settle_coherent unsettled).2.2.2.1⟩

/-! ## Showing it -/

/-- Where neighbours agree the space on the left of a token is what is made of both. -/
theorem markupAfter_of_isChain {x : Token} {ts : List Token} (h : (x :: ts).IsChain Agrees) :
    markupAfter true placeholders x ts = markupAfter false placeholders x ts := by
  induction ts generalizing x with
  | nil => rfl
  | cons y ts ih =>
    obtain ⟨hxy, hrest⟩ := List.isChain_cons_cons.mp h
    rw [markupAfter, markupAfter, ih hrest, if_pos rfl, if_neg Bool.false_ne_true,
      hxy.mergeSpace_eq]

theorem markupOf_of_isChain {ts : List Token} (h : ts.IsChain Agrees) :
    markupOf true placeholders ts = markupOf false placeholders ts := by
  cases ts with
  | nil => rfl
  | cons x ts => rw [markupOf, markupOf, markupAfter_of_isChain h]

/-- A token as a coherent row shows it, behind the space on its left. -/
def shownInRow (placeholders : Bool) (x : Token) : Text :=
  Space.shown? x.leftSpace ++ markupForm placeholders x

theorem markupAfter_true_eq (x : Token) (ts : List Token) :
    markupAfter true placeholders x ts =
      ts.flatMap (shownInRow placeholders) ++ Space.literalOnly (endSpace (x :: ts)) := by
  induction ts generalizing x with
  | nil => rfl
  | cons y ts ih =>
    rw [markupAfter, ih, if_pos rfl, List.flatMap_cons, shownInRow,
      endSpace_cons (List.cons_ne_nil y ts)]
    simp only [List.append_assoc]

/-- **A settled sentence is shown token by token**, each of them behind the space on its left. -/
theorem markup_settle_eq_flatMap {s : Sentence} (htags : s.tags ≠ []) :
    s.settle.markup placeholders = s.settle.tokens.flatMap (shownInRow placeholders) := by
  obtain ⟨hfront, hback⟩ := edges_tokens_settle htags
  rw [markup, spaceConsistent_settle htags]
  cases hrow : s.settle.tokens with
  | nil => rfl
  | cons x ts =>
    rw [hrow] at hfront hback
    have hleft : x.leftSpace = none := hfront
    rw [markupOf, markupAfter_true_eq, hback, List.flatMap_cons, shownInRow, hleft]
    simp [Space.literalOnly, Space.shown?]

/-- **A settled sentence is shown alike with its spaces as they stand and with every boundary merged
anew.** -/
theorem markup_settle_merged {s : Sentence} (htags : s.tags ≠ []) (consistent placeholders : Bool) :
    { s.settle with spaceConsistent := consistent }.markup placeholders =
      s.settle.markup placeholders := by
  have hstored : s.settle.markup placeholders = markupOf true placeholders s.settle.tokens := by
    rw [markup, spaceConsistent_settle htags]
  rw [hstored]
  cases consistent with
  | true => rfl
  | false => exact (markupOf_of_isChain (isChain_tokens_settle htags)).symm

theorem markup_settle_merged_unsettled :
    unsettled.tags ≠ [] ∧
    { unsettled.settle with spaceConsistent := false }.markup false = "a b </i><b>\nc".toList ∧
    unsettled.settle.markup false = "a b </i><b>\nc".toList := by
  have htags : unsettled.tags ≠ [] := by decide
  have hstored : unsettled.settle.markup false = "a b </i><b>\nc".toList := by decide
  exact ⟨htags, (markup_settle_merged htags false false).trans hstored, hstored⟩

end Sentence

end MarkupTransfer
