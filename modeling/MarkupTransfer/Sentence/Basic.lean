import MarkupTransfer.Token
import MarkupTransfer.SortedSet
/-!
# Sentences

A sentence keeps its words and its tags in two lists. Document order puts every tag behind the
number of words that its position says.

* `sortTags_perm`, `sortTags_ascending`: putting tags in order loses none of them.
* `filterMap_word?_interleave`, `filterMap_tag?_interleave`: document order lists the words and the
  tags, each in the order of its own list.
-/

namespace MarkupTransfer

/-- Names attached to a sentence, in the order of their code points. -/
abbrev Annotations := SortedSet Text compare

/-- Words, the tags between them, and names attached to the whole. A sentence is space consistent
once every token agrees with its neighbour about the space they share. -/
structure Sentence where
  words : List Word
  tags : List Tag
  spaceConsistent : Bool
  annotations : Annotations
  deriving DecidableEq

/-- Place of a token in the list of words or in the list of tags. -/
inductive Slot
  | word (index : Nat)
  | tag (index : Nat)
  deriving DecidableEq, Repr

namespace Sentence

/-- Tags in ascending order of position; tags at one position keep their order. -/
def sortTags (tags : List Tag) : List Tag :=
  tags.mergeSort fun a b => decide (a.position ≤ b.position)

theorem sortTags_perm (tags : List Tag) : (sortTags tags).Perm tags :=
  List.mergeSort_perm tags _

theorem sortTags_ascending (tags : List Tag) :
    (sortTags tags).Pairwise fun a b => a.position ≤ b.position := by
  have h : (sortTags tags).Pairwise fun a b => decide (a.position ≤ b.position) = true :=
    List.pairwise_mergeSort (fun a b c => by simpa using Nat.le_trans)
      (fun a b => by simpa using Nat.le_total _ _) tags
  simpa using h

/-- A sentence of words and tags, the tags put in order. -/
def ofTokens (words : List Word) (tags : List Tag) : Sentence :=
  ⟨words, sortTags tags, false, .empty⟩

/-- The sentence with other tags, which are put in order. -/
def withTags (s : Sentence) (tags : List Tag) : Sentence :=
  { s with tags := sortTags tags, spaceConsistent := false }

/-- The sentence with one more annotation. -/
def annotate (s : Sentence) (name : Text) : Sentence :=
  { s with annotations := s.annotations.insert name }

/-- The sentence with another space on the left of one of its tokens. -/
def withLeftSpace (s : Sentence) (slot : Slot) (space : Option Space) : Sentence :=
  match slot with
  | .word i => { s with words := s.words.modify i fun w => { w with leftSpace := space } }
  | .tag i => { s with tags := s.tags.modify i fun t => { t with leftSpace := space } }

/-- The sentence with another space on the right of one of its tokens. -/
def withRightSpace (s : Sentence) (slot : Slot) (space : Option Space) : Sentence :=
  match slot with
  | .word i => { s with words := s.words.modify i fun w => { w with rightSpace := space } }
  | .tag i => { s with tags := s.tags.modify i fun t => { t with rightSpace := space } }

/-! ## Document order -/

/-- Words and tags in document order, once `count` words have gone before. A tag comes as soon as
its position has been reached, and the tags left over follow the last word. -/
def interleave (count : Nat) (words : List Word) (tags : List Tag) : List Token :=
  match words with
  | [] => tags.map .tag
  | w :: ws =>
    (tags.takeWhile fun t => t.position ≤ count).map .tag ++
      .word w :: interleave (count + 1) ws (tags.dropWhile fun t => t.position ≤ count)

/-- The tokens of a sentence in document order. -/
def tokens (s : Sentence) : List Token := interleave 0 s.words s.tags

theorem filterMap_word?_map_tag (tags : List Tag) :
    (tags.map Token.tag).filterMap Token.word? = [] := by
  simp [Token.word?]

theorem filterMap_tag?_map_tag (tags : List Tag) :
    (tags.map Token.tag).filterMap Token.tag? = tags := by
  induction tags with
  | nil => rfl
  | cons t ts ih => simpa [Token.tag?] using ih

theorem filterMap_word?_interleave (count : Nat) (words : List Word) (tags : List Tag) :
    (interleave count words tags).filterMap Token.word? = words := by
  induction words generalizing count tags with
  | nil => exact filterMap_word?_map_tag tags
  | cons w ws ih =>
    rw [interleave, List.filterMap_append, filterMap_word?_map_tag]
    simp [Token.word?, ih]

theorem filterMap_tag?_interleave (count : Nat) (words : List Word) (tags : List Tag) :
    (interleave count words tags).filterMap Token.tag? = tags := by
  induction words generalizing count tags with
  | nil => exact filterMap_tag?_map_tag tags
  | cons w ws ih =>
    rw [interleave, List.filterMap_append, filterMap_tag?_map_tag]
    simp only [List.filterMap_cons, Token.tag?, ih]
    exact List.takeWhile_append_dropWhile

/-- The sentence whose tokens in document order are given, with the lists they come from kept
apart. -/
def withTokens (s : Sentence) (tokens : List Token) : Sentence :=
  { s with words := tokens.filterMap Token.word?, tags := tokens.filterMap Token.tag? }

end Sentence

end MarkupTransfer
