import MarkupTransfer.Proofs.Sentence.Boundaries
/-!
# Whether words stay apart

What settling writes between two words depends on nothing but what is recorded between them, and
white space is shown there just if some white space recorded there lasts. On the left of a tag or of
the second word it does. On the right of the first word or of a tag it moves past the tags behind it
that record nothing, and it is shown in front of the next token; but it is lost

* at a tag that records a space on its right alone, even one without characters, and
* beside a tag, at a side that records an empty space.

The first of the two is how words that had white space between them come to be glued together.

* `map_leftSpace_between`: what settling writes between two words.
* `Lasts`: whether a space on the right of a token is shown in front of one of the next.
* `exists_isSeen_between_iff`: when white space is shown between two words.
-/

namespace MarkupTransfer

open Space (mergeSpace TokenClass IsSeen)

namespace Sentence

open Token (restored)

/-! ## Between two words -/

/-- What is written in front of a word depends on nothing of it but the space on its left. -/
theorem settledAfter_concat_congr (cls : TokenClass) (right : Option Space) (ts : List Token)
    {v w : Word} (h : v.leftSpace = w.leftSpace) :
    settledAfter cls right (ts ++ [.word v]) = settledAfter cls right (ts ++ [.word w]) := by
  induction ts generalizing cls right with
  | nil => rw [List.nil_append, List.nil_append, settledAfter, settledAfter, h]; rfl
  | cons x ts ih =>
    cases x with
    | word u => rw [List.cons_append, settledAfter, ih]; rfl
    | tag t =>
      rw [List.cons_append, settledAfter, List.cons_append, settledAfter]
      split <;> rw [ih]

/-- **What settling writes between two words** that have nothing but tags between them. -/
theorem map_leftSpace_between {s : Sentence} (htags : s.tags ≠ []) {front back : List Token}
    {w w' : Word} {tags : List Tag}
    (hrow : s.tokens = front ++ .word w :: (tags.map .tag ++ .word w' :: back)) :
    ((s.settle.tokens.drop (front.length + 1)).take (tags.length + 1)).map Token.leftSpace =
      settledAfter .word (restoreSpace w).rightSpace (tags.map .tag ++ [.word w']) := by
  have hkept : (keepRow s.tokens).map restored = front.map restored ++ .word (restoreSpace w) ::
      (tags.map .tag ++ .word (restoreSpace (keepBlank w' back)) ::
        (keepRow back).map restored) := by
    rw [hrow, keepRow_append_word, keepBlank_of_word (v := w') (by simp), keepRow_append_word]
    simp [restored, Token.map]
  rw [List.map_take, List.map_drop, map_leftSpace_settle htags, hkept, settledRow_append_word,
    List.drop_left' (by simp), settledAfter_append_word, List.take_left' (by simp)]
  exact settledAfter_concat_congr _ _ _
    ((Token.leftSpace_restored (.word _)).trans (leftSpace_keepBlank w' back))

/-! ## What lasts -/

/-- Whether a space on the right of a token of kind `cls`, with `tags` and then a word behind it, is
shown in front of one of them. It moves past a tag that records nothing. -/
def Lasts (cls : TokenClass) : List Tag → Word → Prop
  | [], w => w.leftSpace = some (.literal []) → cls = .word
  | t :: tags, w =>
    match t.leftSpace with
    | none => t.rightSpace = none ∧ Lasts .tag tags w
    | some left => left = .literal [] → cls = .tag

theorem exists_suffix_cons_iff {α : Type} {P : α → List α → Prop} {a : α} {l : List α} :
    (∃ b behind, b :: behind <:+ a :: l ∧ P b behind) ↔
      P a l ∨ ∃ b behind, b :: behind <:+ l ∧ P b behind := by
  constructor
  · rintro ⟨b, behind, hsuffix, hb⟩
    rcases List.suffix_cons_iff.mp hsuffix with heq | hsuffix
    · obtain ⟨rfl, rfl⟩ := List.cons.inj heq
      exact .inl hb
    · exact .inr ⟨b, behind, hsuffix, hb⟩
  · rintro (ha | ⟨b, behind, hsuffix, hb⟩)
    · exact ⟨a, l, List.suffix_rfl, ha⟩
    · exact ⟨b, behind, List.suffix_cons_iff.mpr (.inr hsuffix), hb⟩

/-- **When white space is shown in front of one of a row of tags or of the word behind them**: where
it is recorded on the left of one of these, or on the right of a tag or in front of the row if it
lasts. -/
theorem exists_isSeen_settledAfter_iff (cls : TokenClass) (right : Option Space) (tags : List Tag)
    (w : Word) :
    (∃ space ∈ settledAfter cls right (tags.map .tag ++ [.word w]), IsSeen space) ↔
      IsSeen w.leftSpace ∨ (∃ t ∈ tags, IsSeen t.leftSpace) ∨ (IsSeen right ∧ Lasts cls tags w) ∨
        ∃ t behind, t :: behind <:+ tags ∧ IsSeen t.rightSpace ∧ Lasts .tag behind w := by
  induction tags generalizing cls right with
  | nil => simp [settledAfter, Space.isSeen_mergeSpace_iff, Lasts]
  | cons t tags ih =>
    rw [exists_suffix_cons_iff, List.map_cons, List.cons_append, settledAfter, Lasts,
      List.exists_mem_cons_iff]
    cases hleft : t.leftSpace with
    | none =>
      -- the tag hands over what stands in front of it, if it records nothing
      have hhanded : IsSeen (t.rightSpace.or right) ↔
          IsSeen t.rightSpace ∨ IsSeen right ∧ t.rightSpace = none := by
        cases t.rightSpace <;> simp
      simp only [List.exists_mem_cons_iff, ih, hhanded, Space.not_isSeen_none, false_or,
        or_and_right, and_assoc, or_assoc, or_left_comm]
    | some left =>
      simp only [List.exists_mem_cons_iff, ih, Space.isSeen_mergeSpace_iff, Option.some.injEq,
        or_assoc, or_left_comm]

/-! ## The sentence -/

/-- Tokens of a settled sentence: `count` of them, from the one behind token `first` on. -/
def settledBehind (s : Sentence) (first count : Nat) : List Token :=
  (s.settle.tokens.drop (first + 1)).take count

/-- **When settling leaves white space between two words** that have nothing but tags between them.
What is shown from behind the first word to the end of the second is the tokens there, each behind
the space on its left. White space is shown in front of one of them just if it is recorded on the
left of one of them, or if it is recorded on the right of the first word or of a tag and lasts. A
word that was flagged records a blank on its right. -/
theorem isSeen_between_iff {s : Sentence} (htags : s.tags ≠ []) {front back : List Token}
    {w w' : Word} {tags : List Tag}
    (hrow : s.tokens = front ++ .word w :: (tags.map .tag ++ .word w' :: back))
    (placeholders : Bool) :
    s.settle.markup placeholders =
      (s.settle.tokens.take (front.length + 1)).flatMap (shownInRow placeholders) ++
        (s.settledBehind front.length (tags.length + 1)).flatMap (shownInRow placeholders) ++
        (s.settle.tokens.drop (front.length + tags.length + 2)).flatMap (shownInRow placeholders) ∧
    ((∃ x ∈ s.settledBehind front.length (tags.length + 1), IsSeen x.leftSpace) ↔
      IsSeen w'.leftSpace ∨ (∃ t ∈ tags, IsSeen t.leftSpace) ∨
        (IsSeen (restoreSpace w).rightSpace ∧ Lasts .word tags w') ∨
        ∃ t behind, t :: behind <:+ tags ∧ IsSeen t.rightSpace ∧ Lasts .tag behind w') := by
  constructor
  · have hcut : s.settle.tokens = s.settle.tokens.take (front.length + 1) ++
        s.settledBehind front.length (tags.length + 1) ++
        s.settle.tokens.drop (front.length + tags.length + 2) := by
      have hbehind : s.settle.tokens.drop (front.length + tags.length + 2) =
          (s.settle.tokens.drop (front.length + 1)).drop (tags.length + 1) := by
        rw [List.drop_drop]
        congr 1
        omega
      rw [hbehind, settledBehind, List.append_assoc, List.take_append_drop, List.take_append_drop]
    rw [← List.flatMap_append, ← List.flatMap_append, ← hcut]
    exact markup_settle_eq_flatMap htags
  · rw [← exists_isSeen_settledAfter_iff, ← map_leftSpace_between htags hrow, settledBehind]
    simp only [List.mem_map, exists_exists_and_eq_and]

/-- A word with white space behind it that moves past two tags. -/
def movedSpace : Sentence where
  words := [.ofText none ['a'] none (some (.literal ['\t'])), .ofText none ['b'] none none]
  tags :=
    [⟨.xml, ['b'], ['<', '/', 'b', '>'], none, none, 1, .closing, false⟩,
      ⟨.xml, ['i'], ['<', 'i', '>'], none, none, 1, .opening, false⟩]
  spaceConsistent := false
  annotations := .empty

theorem isSeen_between_iff_movedSpace :
    movedSpace.tags ≠ [] ∧ movedSpace.tokens = [] ++ .word (.ofText none ['a'] none
        (some (.literal ['\t']))) ::
      (movedSpace.tags.map .tag ++ .word (.ofText none ['b'] none none) :: []) ∧
    (∃ x ∈ movedSpace.settledBehind 0 3, IsSeen x.leftSpace) ∧
    movedSpace.settle.markup false = "a</b><i>\tb".toList := by
  have hrow : movedSpace.tokens = [] ++ .word (.ofText none ['a'] none (some (.literal ['\t']))) ::
      (movedSpace.tags.map .tag ++ .word (.ofText none ['b'] none none) :: []) := rfl
  refine ⟨by decide, hrow, ?_, by decide⟩
  exact (isSeen_between_iff (by decide) hrow false).2.mpr
    (.inr (.inr (.inl ⟨by decide, rfl, rfl, nofun⟩)))

/-- Two words with a blank between them, and a tag in front of the second that only touches it. -/
def gluedWords : Sentence where
  words := [.ofText none ['a'] none (some .blank), .ofText none ['b'] none none]
  tags := [⟨.xml, ['b'], ['<', 'b', '>'], none, some .virtual, 1, .opening, false⟩]
  spaceConsistent := false
  annotations := .empty

/-- The blank behind the first word is lost at a tag that touches the second. -/
theorem settle_glues_words :
    gluedWords.tokens = [] ++ .word (.ofText none ['a'] none (some .blank)) ::
      (gluedWords.tags.map .tag ++ .word (.ofText none ['b'] none none) :: []) ∧
    IsSeen (Word.ofText none ['a'] none (some .blank)).rightSpace ∧
    (¬ ∃ x ∈ gluedWords.settledBehind 0 2, IsSeen x.leftSpace) ∧
    gluedWords.markup false = "a <b>b".toList ∧
    gluedWords.settle.markup false = "a<b>b".toList := by
  refine ⟨rfl, by decide, by decide, by decide, by decide⟩

end Sentence

end MarkupTransfer
