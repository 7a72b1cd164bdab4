import Mathlib
import MarkupTransfer.Sentence.Slots
import MarkupTransfer.Proofs.Sentence.Order
/-!
# A walk comes to every token once

A walk keeps two places, and each step goes on by one in one list. So whatever positions the tags
have, the slots of the words that a walk comes to are those from the word that is next to the last,
and likewise for the tags (`filterMap_word?_slotsFrom`, `filterMap_tag?_slotsFrom`). Where the two
rows meet is told by the positions. A tag is held up until as many words have gone before as its
position says, if there are so many, and a tag that stands behind another has to wait for it. So the
number of words before a tag is the furthest position among the tags up to that one, cut off at the
number of words (`wordsBefore_slotsFrom`).

* `slots_merge`: a walk through a sentence merges its words and its tags.
-/

namespace MarkupTransfer

namespace Slot

@[simp] theorem filterMap_word?_word (i : Nat) (slots : List Slot) :
    (word i :: slots).filterMap word? = i :: slots.filterMap word? := rfl

@[simp] theorem filterMap_word?_tag (j : Nat) (slots : List Slot) :
    (tag j :: slots).filterMap word? = slots.filterMap word? := rfl

@[simp] theorem filterMap_tag?_word (i : Nat) (slots : List Slot) :
    (word i :: slots).filterMap tag? = slots.filterMap tag? := rfl

@[simp] theorem filterMap_tag?_tag (j : Nat) (slots : List Slot) :
    (tag j :: slots).filterMap tag? = j :: slots.filterMap tag? := rfl

theorem length_eq_filterMap (slots : List Slot) :
    slots.length = (slots.filterMap word?).length + (slots.filterMap tag?).length := by
  induction slots with
  | nil => rfl
  | cons slot slots ih =>
    cases slot <;> simp only [filterMap_word?_word, filterMap_word?_tag, filterMap_tag?_word,
      filterMap_tag?_tag, List.length_cons, ih] <;> omega

end Slot

namespace Sentence

variable {s : Sentence} {c : Cursor}

/-! ## Every slot once -/

theorem slotsFrom_eq_cons {next : Cursor} {slot : Slot} (h : s.nextSlot? c = some (slot, next)) :
    s.slotsFrom c = slot :: s.slotsFrom next := by
  rw [slotsFrom]
  split
  · next hnone => cases hnone.symm.trans h
  · next hsome =>
    obtain ⟨rfl, rfl⟩ := Prod.mk.inj (Option.some.inj (hsome.symm.trans h))
    rfl

/-- The words that a walk comes to are those from the next one on. -/
theorem filterMap_word?_slotsFrom (s : Sentence) (c : Cursor) :
    (s.slotsFrom c).filterMap Slot.word? = List.range' c.word (s.words.length - c.word) := by
  fun_induction slotsFrom s c with
  | case1 c h =>
    rw [Nat.sub_eq_zero_of_le (le_of_nextSlot?_eq_none h).1]
    rfl
  | case2 c slot next h ih =>
    rcases nextSlot?_cases h with ⟨hword, -, rfl, rfl⟩ | ⟨-, -, rfl, rfl⟩
    · have hleft : s.words.length - c.word = s.words.length - (c.word + 1) + 1 := by omega
      rw [Slot.filterMap_word?_word, ih, hleft, List.range'_succ]
    · rw [Slot.filterMap_word?_tag, ih]

/-- The tags that a walk comes to are those from the next one on. -/
theorem filterMap_tag?_slotsFrom (s : Sentence) (c : Cursor) :
    (s.slotsFrom c).filterMap Slot.tag? = List.range' c.tag (s.tags.length - c.tag) := by
  fun_induction slotsFrom s c with
  | case1 c h =>
    rw [Nat.sub_eq_zero_of_le (le_of_nextSlot?_eq_none h).2]
    rfl
  | case2 c slot next h ih =>
    rcases nextSlot?_cases h with ⟨-, -, rfl, rfl⟩ | ⟨htag, -, rfl, rfl⟩
    · rw [Slot.filterMap_tag?_word, ih]
    · have hleft : s.tags.length - c.tag = s.tags.length - (c.tag + 1) + 1 := by omega
      rw [Slot.filterMap_tag?_tag, ih, hleft, List.range'_succ]

/-- The tokens that a walk comes to are those that are left, in document order. -/
theorem map_token?_slotsFrom (s : Sentence) (c : Cursor) :
    (s.slotsFrom c).map s.token? =
      (interleave c.word (s.words.drop c.word) (s.tags.drop c.tag)).map some := by
  fun_induction slotsFrom s c with
  | case1 c h =>
    obtain ⟨hword, htag⟩ := le_of_nextSlot?_eq_none h
    rw [List.drop_eq_nil_of_le hword, List.drop_eq_nil_of_le htag]
    rfl
  | case2 c slot next h ih =>
    rcases nextSlot?_cases h with ⟨hword, hdue, rfl, rfl⟩ | ⟨htag, hdue, rfl, rfl⟩
    · have hhead : ∀ t ∈ (s.tags.drop c.tag).head?, c.word < t.position := by
        rwa [List.head?_drop]
      rw [List.drop_eq_getElem_cons hword, interleave_cons_word _ _ hhead, List.map_cons,
        List.map_cons, ih, token?, List.getElem?_eq_getElem hword, Option.map_some]
    · have hinterleave : interleave c.word (s.words.drop c.word) (s.tags.drop c.tag) =
          .tag s.tags[c.tag] ::
            interleave c.word (s.words.drop c.word) (s.tags.drop (c.tag + 1)) := by
        rw [List.drop_eq_getElem_cons htag]
        rcases hdue with hend | hdue
        · rw [List.drop_eq_nil_of_le hend]
          rfl
        · exact interleave_cons_tag _ _ hdue
      rw [hinterleave, List.map_cons, List.map_cons, ih, token?, List.getElem?_eq_getElem htag,
        Option.map_some]

/-! ## Where the two lists meet -/

/-- The furthest of some tags, none of them counting for less than `start`. -/
def furthest (start : Nat) (tags : List Tag) : Nat :=
  (tags.map Tag.position).foldl max start

theorem furthest_cons (start : Nat) (t : Tag) (tags : List Tag) :
    furthest start (t :: tags) = furthest (max start t.position) tags := rfl

theorem le_furthest (start : Nat) (tags : List Tag) : start ≤ furthest start tags := by
  induction tags generalizing start with
  | nil => exact Nat.le_refl _
  | cons t tags ih => exact Nat.le_trans (Nat.le_max_left _ _) (ih _)

/-- Of tags in order of position, the last is the furthest. -/
theorem furthest_concat {tags : List Tag} {t : Tag}
    (h : (tags ++ [t]).Pairwise (·.position ≤ ·.position)) (start : Nat) :
    furthest start (tags ++ [t]) = max start t.position := by
  induction tags generalizing start with
  | nil => rfl
  | cons u tags ih =>
    have hle : u.position ≤ t.position := (List.pairwise_cons.mp h).1 t (by simp)
    rw [List.cons_append, furthest_cons, ih (List.pairwise_cons.mp h).2]
    omega

/-- A walk comes to a tag that is there and that it has not come to yet. -/
theorem tag_mem_slotsFrom {j : Nat} (h : .tag j ∈ s.slotsFrom c) :
    c.tag ≤ j ∧ j < s.tags.length := by
  have hmem : j ∈ (s.slotsFrom c).filterMap Slot.tag? := List.mem_filterMap.mpr ⟨_, h, rfl⟩
  rw [filterMap_tag?_slotsFrom, List.mem_range'_1] at hmem
  omega

theorem drop_take_eq_cons {tags : List Tag} {i j : Nat} (hi : i ≤ j) (hj : j < tags.length) :
    (tags.take (j + 1)).drop i = tags[i] :: (tags.take (j + 1)).drop (i + 1) := by
  rw [List.drop_eq_getElem_cons (by rw [List.length_take]; omega), List.getElem_take]

/-- **As many words go before a tag as the furthest tag up to it says, if there are so many.** -/
theorem wordsBefore_slotsFrom (hc : c.word ≤ s.words.length) {front back : List Slot} {j : Nat}
    (h : s.slotsFrom c = front ++ .tag j :: back) :
    c.word + (front.filterMap Slot.word?).length =
      min s.words.length (furthest c.word ((s.tags.take (j + 1)).drop c.tag)) := by
  fun_induction slotsFrom s c generalizing front with
  | case1 c hnext => exact absurd h (by simp)
  | case2 c slot next hnext ih =>
    have hmem : .tag j ∈ s.slotsFrom c := by
      rw [slotsFrom_eq_cons hnext, h]
      simp
    obtain ⟨hle, hj⟩ := tag_mem_slotsFrom hmem
    rw [drop_take_eq_cons hle hj, furthest_cons]
    rcases nextSlot?_cases hnext with ⟨hword, hdue, rfl, rfl⟩ | ⟨htag, hdue, rfl, rfl⟩
    -- A word is next: the tag at hand lies further on, so it sets the pace before and after.
    · obtain _ | ⟨slot, front⟩ := front
      · cases List.head_eq_of_cons_eq h
      · obtain ⟨rfl, hrest⟩ := List.cons.inj h
        have hahead : c.word < s.tags[c.tag].position := hdue _ (List.getElem?_eq_getElem _)
        have hlength := ih hword hrest
        simp only [drop_take_eq_cons hle hj, furthest_cons, Nat.max_eq_right hahead] at hlength
        rw [Nat.max_eq_right (Nat.le_of_lt hahead), Slot.filterMap_word?_word, List.length_cons]
        omega
    -- A tag is next: it has been reached or no word is left, so it does not count any more.
    · have hdone : min s.words.length (furthest (max c.word s.tags[c.tag].position)
            ((s.tags.take (j + 1)).drop (c.tag + 1))) =
          min s.words.length (furthest c.word ((s.tags.take (j + 1)).drop (c.tag + 1))) := by
        rcases hdue with hend | hdue
        · have := le_furthest c.word ((s.tags.take (j + 1)).drop (c.tag + 1))
          have := le_furthest (max c.word s.tags[c.tag].position)
            ((s.tags.take (j + 1)).drop (c.tag + 1))
          omega
        · rw [Nat.max_eq_left hdue]
      rw [hdone]
      obtain _ | ⟨slot, front⟩ := front
      · obtain rfl : c.tag = j := Slot.tag.inj (List.head_eq_of_cons_eq h)
        rw [List.drop_eq_nil_of_le (List.length_take_le _ _)]
        exact (Nat.min_eq_right hc).symm
      · obtain ⟨rfl, hrest⟩ := List.cons.inj h
        rw [Slot.filterMap_word?_tag]
        exact ih hc hrest

/-- **A walk merges the words and the tags of a sentence.** It comes to every word and to every tag
once, each in the order of its own list, and what it comes to are the tokens in document order.
Wherever the tags stand, as many words go before a tag as the furthest position among the tags up to
that one says, or all words if there are not so many; if the tags are in order, it is the position
of the tag itself that says so. -/
theorem slots_merge (s : Sentence) :
    s.slots.length = s.length ∧
    s.slots.filterMap Slot.word? = List.range s.words.length ∧
    s.slots.filterMap Slot.tag? = List.range s.tags.length ∧
    s.slots.map s.token? = s.tokens.map some ∧
    (∀ front j back, s.slots = front ++ .tag j :: back →
      (front.filterMap Slot.word?).length =
        min s.words.length (((s.tags.take (j + 1)).map Tag.position).foldl max 0)) ∧
    (s.tags.Pairwise (·.position ≤ ·.position) → ∀ front j back t,
      s.slots = front ++ .tag j :: back → s.tags[j]? = some t →
      (front.filterMap Slot.word?).length = min s.words.length t.position) := by
  have hwords : s.slots.filterMap Slot.word? = List.range s.words.length := by
    rw [slots, filterMap_word?_slotsFrom, List.range_eq_range']
    rfl
  have htags : s.slots.filterMap Slot.tag? = List.range s.tags.length := by
    rw [slots, filterMap_tag?_slotsFrom, List.range_eq_range']
    rfl
  have hbefore : ∀ front j back, s.slots = front ++ .tag j :: back →
      (front.filterMap Slot.word?).length =
        min s.words.length (furthest 0 (s.tags.take (j + 1))) := fun front j back h => by
    simpa using wordsBefore_slotsFrom (c := ⟨0, 0⟩) (Nat.zero_le _) h
  refine ⟨?length, hwords, htags, map_token?_slotsFrom s ⟨0, 0⟩, hbefore, ?sorted⟩
  case length =>
    rw [Slot.length_eq_filterMap, hwords, htags, List.length_range, List.length_range, length]
  case sorted =>
    intro hsorted front j back t h ht
    obtain ⟨hj, rfl⟩ := List.getElem?_eq_some_iff.mp ht
    rw [hbefore front j back h, List.take_succ_eq_append_getElem hj,
      furthest_concat (List.take_succ_eq_append_getElem hj ▸ hsorted.take) 0, Nat.zero_max]

/-- A sentence of two words that has been stored with its closing tag in front. -/
def hastySentence : Sentence where
  words := [.ofText none ['a'] none none, .ofText none ['b'] none none]
  tags := [⟨.xml, ['i'], "</i>".toList, none, none, 7, .closing, false⟩,
    ⟨.xml, ['i'], "<i>".toList, none, none, 1, .opening, false⟩]
  spaceConsistent := false
  annotations := .empty

theorem slots_merge_hastySentence :
    hastySentence.slots = [.word 0, .word 1, .tag 0, .tag 1] ∧
    ([Slot.word 0, .word 1, .tag 0].filterMap Slot.word?).length = min 2 (max (max 0 7) 1) ∧
    (hastySentence.withTags hastySentence.tags).slots = [.word 0, .tag 0, .word 1, .tag 1] ∧
    ([Slot.word 0, .tag 0, .word 1].filterMap Slot.word?).length = min 2 7 := by
  have hslots : hastySentence.slots = [.word 0, .word 1, .tag 0, .tag 1] := by cbv
  have hsorted : (hastySentence.withTags hastySentence.tags).slots =
      [.word 0, .tag 0, .word 1, .tag 1] := by cbv
  have hascending := sortTags_ascending hastySentence.tags
  have hlast : (sortTags hastySentence.tags)[1]? = hastySentence.tags[0]? := by cbv
  refine ⟨hslots, (slots_merge hastySentence).2.2.2.2.1 _ 1 [] hslots, hsorted, ?_⟩
  exact (slots_merge (hastySentence.withTags hastySentence.tags)).2.2.2.2.2 hascending _ 1 [] _
    hsorted hlast

end Sentence

end MarkupTransfer
