import MarkupTransfer.Proofs.Projection.Identity
import MarkupTransfer.Proofs.Tokenize.Neighbours
/-!
# A sentence projected onto itself

The tags of a sentence come back to where they stood if the sentence is taken for a translation of
itself, and settling the spaces then changes hardly anything that is seen: the outer spaces go, and
a word that was flagged for a space behind its tag gets a blank in front of the tag, unless there is
white space already.

* `Sentence.IsFresh.projectTags_ofItself`: the sentence that is settled in the end.
* `projectTags_onto_itself`: what the result is shown as, and when it is shown as the sentence was.
* `markup_tagBetween`: the blank that a flagged word gets is seen.
-/

namespace MarkupTransfer

open Sentence (core frontSpace backSpace)

/-- The words of a sentence as a translation of the sentence itself. -/
def Translation.ofItself (s : Sentence) : Translation :=
  .ofWords s.words s (.identity s.words.length)

namespace Sentence.IsFresh

variable {s : Sentence}

theorem sortTags_eq (h : s.IsFresh) : sortTags s.tags = s.tags := by
  have hascending := h.numbered.ascending
  rw [filterMap_tag?_tokens] at hascending
  exact sortTags_eq_self hascending

/-- No tag of a fresh sentence stands behind its last word. -/
theorem map_within (h : s.IsFresh) : s.tags.map (Tag.within s.words.length) = s.tags := by
  refine (List.map_congr_left fun t ht => ?_).trans (List.map_id _)
  have hnumbered : Token.IsNumbered 0 (s.tokens ++ []) := by
    rw [List.append_nil]
    exact h.numbered
  have hle := hnumbered.position_le (tag_mem_tokens_iff.mpr ht)
  rw [filterMap_word?_tokens, Nat.zero_add] at hle
  rw [Tag.within, Nat.min_eq_left hle]
  rfl

/-- **The tags of a fresh sentence come back to where they stood**, and its spaces are settled. -/
theorem projectTags_ofItself (h : s.IsFresh) (policy : UnalignedPolicy) (hwords : s.words ≠ [])
    (htags : s.tags ≠ []) : (Translation.ofItself s).projectTags policy =
      .ok { Translation.ofItself s with
        sentence := { s with annotations := .empty }.settle } := by
  have hplaced : (ofTokens s.words []).withTags s.tags = { s with annotations := .empty } := by
    rw [withTags, h.sortTags_eq, ofTokens, ← h.unsettled]
  have hok := Translation.projectTags_eq_ok_of_identity (t := .ofItself s) policy rfl hwords htags
    rfl rfl
  rw [h.sortTags_eq, h.map_within] at hok
  rw [hok, ← hplaced]
  rfl

/-- The blanks that words get are seen, unless no flagged word touches its tag. -/
theorem core_spaced_eq_iff (h : s.IsFresh) (placeholders : Bool) :
    core placeholders (s.tokens.map Token.spaced) = core placeholders s.tokens ↔
      ∀ w ∈ s.words, w.tagRightSpaceRequired = true → w.rightSpace ≠ some .virtual := by
  rw [Sentence.core_spaced_eq_iff h.neighbours h.last]
  constructor
  · intro hnone w hw hflag hvirtual
    have htouches : (Token.word w).touchesTag = true := Token.touchesTag_iff.mpr ⟨hflag, hvirtual⟩
    rw [hnone _ (word_mem_tokens_iff.mpr hw)] at htouches
    cases htouches
  · intro hnone y hy
    cases y with
    | tag t => rfl
    | word w =>
      refine Bool.eq_false_iff.mpr fun htouches => ?_
      obtain ⟨hflag, hvirtual⟩ := Token.touchesTag_iff.mp htouches
      exact hnone w (word_mem_tokens_iff.mp hy) hflag hvirtual

end Sentence.IsFresh

/-- **A sentence projected onto itself is shown as before, but for spaces.** The literal spaces on
the left of its first token and on the right of its last one are gone. A blank is shown behind every
word that touches the tag behind it and is flagged for a space behind a tag. Nothing else changes,
so nothing at all just where no flagged word touches its tag. -/
theorem projectTags_onto_itself (policy : UnalignedPolicy) (placeholders : Bool) (t : Text) :
    ∃ s, tokenize t = .ok s ∧ (s.words ≠ [] → s.tags ≠ [] →
      s.markup placeholders =
        frontSpace s.tokens ++ core placeholders s.tokens ++ backSpace s.tokens ∧
      ∃ t', (Translation.ofItself s).projectTags policy = .ok t' ∧
        t'.sentence.markup placeholders = core placeholders (s.tokens.map Token.spaced) ∧
        (t'.sentence.markup placeholders = core placeholders s.tokens ↔
          ∀ w ∈ s.words, w.tagRightSpaceRequired = true → w.rightSpace ≠ some .virtual)) := by
  obtain ⟨-, -, s, -, -, hs⟩ := exists_tokenize_eq t
  refine ⟨s, hs, fun hwords htags => ?_⟩
  have hfresh : s.IsFresh := isFresh_of_tokenize hs
  refine ⟨hfresh.markup_eq placeholders, _, hfresh.projectTags_ofItself policy hwords htags, ?_⟩
  have hshown : { s with annotations := .empty }.settle.markup placeholders =
      core placeholders (s.tokens.map Token.spaced) :=
    Sentence.markup_settle hfresh.numbered hfresh.neighbours hwords htags
  exact ⟨hshown, by rw [hshown]; exact hfresh.core_spaced_eq_iff placeholders⟩

/-- A text with outer spaces and a flagged word that touches its tag. -/
theorem projectTags_onto_itself_touchingTag :
    ∃ s t', tokenize " a<i> b</i>\t".toList = .ok s ∧ s.words ≠ [] ∧ s.tags ≠ [] ∧
      (Translation.ofItself s).projectTags .proportional = .ok t' ∧
      t'.sentence.markup false = "a <i> b</i>\t".toList := by
  obtain ⟨s, hs, h⟩ := projectTags_onto_itself .proportional false " a<i> b</i>\t".toList
  have hseen : (tokenize " a<i> b</i>\t".toList).toOption.map (fun s =>
      (s.words.length, s.tags.length, core false (s.tokens.map Token.spaced))) =
      some (2, 3, "a <i> b</i>\t".toList) := by cbv
  rw [hs] at hseen
  simp only [Except.toOption, Option.map_some, Option.some.injEq, Prod.mk.injEq] at hseen
  obtain ⟨hwords, htags, hcore⟩ := hseen
  have hwords : s.words ≠ [] := List.ne_nil_of_length_eq_add_one hwords
  have htags : s.tags ≠ [] := List.ne_nil_of_length_eq_add_one htags
  obtain ⟨-, t', hok, hshown, -⟩ := h hwords htags
  exact ⟨s, t', hs, hwords, htags, hok, hshown.trans hcore⟩

/-- The blank that a flagged word gets is seen. -/
theorem markup_tagBetween :
    ∃ s, tokenize "a<br/>b".toList = .ok s ∧ s.words ≠ [] ∧ s.tags ≠ [] ∧
      s.markup false = "a<br/>b".toList ∧ frontSpace s.tokens = [] ∧ backSpace s.tokens = [] ∧
      ((Translation.ofItself s).projectTags .proportional).map
        (fun t' => t'.sentence.markup false) = .ok "a <br/>b".toList :=
  ⟨⟨[⟨some ['a'], ['a'], none, some .virtual, false, true, true⟩,
        ⟨some ['b'], ['b'], some .virtual, none, true, false, false⟩],
      [⟨.xml, "br".toList, "<br/>".toList, some .virtual, some .virtual, 1, .empty, false⟩], false,
      .empty⟩,
    by cbv, by decide, by decide, by decide, rfl, rfl, by cbv⟩

end MarkupTransfer
