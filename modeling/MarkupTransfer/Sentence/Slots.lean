import MarkupTransfer.Sentence.Basic
/-!
# Walking through a sentence

Document order can be walked through one token at a time. Two places are kept, one in the list of
words and one in the list of tags, and each step goes on by one in one of the lists.
-/

namespace MarkupTransfer

namespace Slot

/-- The place in the list of words, if that is where a slot is. -/
def word? : Slot → Option Nat
  | word i => some i
  | tag _ => none

/-- The place in the list of tags, if that is where a slot is. -/
def tag? : Slot → Option Nat
  | word _ => none
  | tag j => some j

end Slot

/-- How far a walk has come: the word and the tag that are next, by their places. -/
structure Cursor where
  word : Nat
  tag : Nat
  deriving DecidableEq, Repr

namespace Sentence

/-- Number of tokens. -/
def length (s : Sentence) : Nat := s.words.length + s.tags.length

/-- The token of a slot, if there is one. -/
def token? (s : Sentence) : Slot → Option Token
  | .word i => s.words[i]?.map .word
  | .tag j => s.tags[j]?.map .tag

/-- The slot that a walk comes to next, and how far it has come then. A tag is next if its position
has been reached or no word is left, otherwise a word. -/
def nextSlot? (s : Sentence) (c : Cursor) : Option (Slot × Cursor) :=
  let wordsLeft := decide (c.word < s.words.length)
  match s.tags[c.tag]? with
  | some t =>
    if !wordsLeft || decide (t.position ≤ c.word) then
      some (.tag c.tag, { c with tag := c.tag + 1 })
    else some (.word c.word, { c with word := c.word + 1 })
  | none => if wordsLeft then some (.word c.word, { c with word := c.word + 1 }) else none

/-- A walk has come to the end only if both lists have been walked through. -/
theorem le_of_nextSlot?_eq_none {s : Sentence} {c : Cursor} (h : s.nextSlot? c = none) :
    s.words.length ≤ c.word ∧ s.tags.length ≤ c.tag := by
  simp only [nextSlot?] at h
  split at h
  · split at h <;> cases h
  · next htag =>
    split at h
    · cases h
    · next hword => exact ⟨by simpa using hword, by simpa using htag⟩

/-- A step of a walk comes to a word that is there, no tag being due yet, or to a tag that is there
and due, and goes on by one in one list. -/
theorem nextSlot?_cases {s : Sentence} {c next : Cursor} {slot : Slot}
    (h : s.nextSlot? c = some (slot, next)) :
    (c.word < s.words.length ∧ (∀ t ∈ s.tags[c.tag]?, c.word < t.position) ∧
      slot = .word c.word ∧ next = { c with word := c.word + 1 }) ∨
    ∃ htag : c.tag < s.tags.length,
      (s.words.length ≤ c.word ∨ s.tags[c.tag].position ≤ c.word) ∧
      slot = .tag c.tag ∧ next = { c with tag := c.tag + 1 } := by
  simp only [nextSlot?] at h
  split at h
  · next t ht =>
    obtain ⟨htag, rfl⟩ := List.getElem?_eq_some_iff.mp ht
    split at h
    · next hdue =>
      obtain ⟨rfl, rfl⟩ := Prod.mk.inj (Option.some.inj h)
      exact .inr ⟨htag, by simpa using hdue, rfl, rfl⟩
    · next hdue =>
      obtain ⟨rfl, rfl⟩ := Prod.mk.inj (Option.some.inj h)
      simp only [Bool.or_eq_true, Bool.not_eq_true', decide_eq_false_iff_not, decide_eq_true_eq,
        not_or, Decidable.not_not, Nat.not_le] at hdue
      refine .inl ⟨hdue.1, fun t ht' => ?_, rfl, rfl⟩
      obtain rfl := Option.some.inj (ht.symm.trans ht')
      exact hdue.2
  · next htag =>
    split at h
    · next hword =>
      obtain ⟨rfl, rfl⟩ := Prod.mk.inj (Option.some.inj h)
      exact .inl ⟨by simpa using hword, by simp [htag], rfl, rfl⟩
    · cases h

/-- Number of tokens that a walk has not come to yet. -/
def remaining (s : Sentence) (c : Cursor) : Nat :=
  (s.words.length - c.word) + (s.tags.length - c.tag)

theorem remaining_lt_of_nextSlot? {s : Sentence} {c next : Cursor} {slot : Slot}
    (h : s.nextSlot? c = some (slot, next)) : s.remaining next < s.remaining c := by
  rcases nextSlot?_cases h with ⟨hword, -, -, rfl⟩ | ⟨htag, -, -, rfl⟩ <;>
    simp only [remaining] <;> omega

/-- The slots that a walk comes to, up to the end of both lists. -/
def slotsFrom (s : Sentence) (c : Cursor) : List Slot :=
  match _h : s.nextSlot? c with
  | none => []
  | some (slot, next) => slot :: slotsFrom s next
termination_by s.remaining c
decreasing_by exact remaining_lt_of_nextSlot? _h

/-- The slots of a sentence in document order. -/
def slots (s : Sentence) : List Slot := s.slotsFrom ⟨0, 0⟩

end Sentence

end MarkupTransfer
