import MarkupTransfer.Sentence.Settle
import MarkupTransfer.Proofs.Sentence.Order
/-!
# Settling changes nothing but spaces

Every step of settling gives tokens other spaces and leaves them where they are, so a settled
sentence has the words and the tags it had, up to the spaces beside them.

* `spaceless_shiftSpaces`, `spaceless_agreeSpaces`: the steps on the row of tokens.
* `spaceless_settle`: a settled sentence.
* `bare_tags_settle`, `position_tags_settle`: what its tags are and where they stand.
* `tokens_settle`: its row of tokens is the one that the last step leaves, in whatever order its
  tags are kept.
-/

namespace MarkupTransfer

/-- A word without the spaces beside it. -/
def Word.spaceless (w : Word) : Word := { w with leftSpace := none, rightSpace := none }

namespace Tag

/-- A tag without the spaces beside it. -/
def spaceless (t : Tag) : Tag := { t with leftSpace := none, rightSpace := none }

/-- What a tag is, wherever it stands: all but its position and the spaces beside it. -/
def bare (t : Tag) : Tag := { t with leftSpace := none, rightSpace := none, position := 0 }

theorem bare_eq_bare_iff {t u : Tag} : t.bare = u.bare ↔
    t.kind = u.kind ∧ t.name = u.name ∧ t.text = u.text ∧ t.type = u.type ∧
      t.isDeclaration = u.isDeclaration := by
  simp [bare]

end Tag

namespace Token

/-- A token without the spaces beside it. -/
def spaceless (t : Token) : Token := t.map Word.spaceless Tag.spaceless

@[simp] theorem spaceless_withLeftSpace (s : Option Space) (t : Token) :
    (t.withLeftSpace s).spaceless = t.spaceless := by
  cases t <;> rfl

@[simp] theorem spaceless_withRightSpace (s : Option Space) (t : Token) :
    (t.withRightSpace s).spaceless = t.spaceless := by
  cases t <;> rfl

@[simp] theorem cls_spaceless (t : Token) : t.spaceless.cls = t.cls := by
  cases t <;> rfl

/-- A row is known by the kinds of its tokens, by its words and by its tags. -/
theorem eq_of_filterMap_eq {ts us : List Token} (hkinds : ts.map cls = us.map cls)
    (hwords : ts.filterMap word? = us.filterMap word?)
    (htags : ts.filterMap tag? = us.filterMap tag?) : ts = us := by
  induction ts generalizing us with
  | nil => exact (List.map_eq_nil_iff.mp hkinds.symm).symm
  | cons x ts ih =>
    cases us with
    | nil => cases hkinds
    | cons y us =>
      obtain ⟨hxy, hrest⟩ := List.cons.inj hkinds
      cases x with
      | word w =>
        cases y with
        | tag t => cases hxy
        | word v =>
          obtain ⟨rfl, hwordsRest⟩ := List.cons.inj hwords
          rw [ih hrest hwordsRest htags]
      | tag t =>
        cases y with
        | word v => cases hxy
        | tag u =>
          obtain ⟨rfl, htagsRest⟩ := List.cons.inj htags
          rw [ih hrest hwords htagsRest]

end Token

namespace Sentence

open Token (spaceless)

/-! ## The steps -/

@[simp] theorem spaceless_restoreSpace (w : Word) :
    spaceless (.word (restoreSpace w)) = spaceless (.word w) := by
  unfold restoreSpace
  split <;> rfl

theorem spaceless_shiftAfter (previous : Token) (tokens : List Token) :
    (shiftAfter previous tokens).map spaceless = (previous :: tokens).map spaceless := by
  induction tokens generalizing previous with
  | nil => simp [shiftAfter]
  | cons token rest ih =>
    cases token with
    | word w => simp [shiftAfter, ih]
    | tag t =>
      rw [shiftAfter]
      split
      · rw [List.map_cons, ih, Token.spaceless_withRightSpace]
        rfl
      · rw [List.map_cons, ih]
        rfl

/-- Moving spaces past tags changes nothing but spaces. -/
theorem spaceless_shiftSpaces (tokens : List Token) :
    (shiftSpaces tokens).map spaceless = tokens.map spaceless := by
  match tokens with
  | [] => rfl
  | .tag t :: rest =>
    rw [shiftSpaces, spaceless_shiftAfter]
    rfl
  | .word w :: rest => simp [shiftSpaces, spaceless_shiftAfter]

theorem spaceless_agreeAfter (previous : Token) (tokens : List Token) :
    (agreeAfter previous tokens).map spaceless = (previous :: tokens).map spaceless := by
  induction tokens generalizing previous with
  | nil => rfl
  | cons token rest ih => simp [agreeAfter, ih]

/-- Making neighbours agree changes nothing but spaces. -/
theorem spaceless_agreeSpaces (tokens : List Token) :
    (agreeSpaces tokens).map spaceless = tokens.map spaceless := by
  cases tokens with
  | nil => rfl
  | cons first rest => simp [agreeSpaces, spaceless_agreeAfter]

theorem spaceless_keepTrailing (words : List Word) (tags : List Tag) :
    (keepTrailing words tags).map Word.spaceless = words.map Word.spaceless := by
  have hmodify : ∀ f : Word → Word, (∀ w, (f w).spaceless = w.spaceless) →
      (modifyLast f words).map Word.spaceless = words.map Word.spaceless := by
    intro f hf
    apply List.ext_getElem?
    intro i
    simp only [modifyLast, List.getElem?_map, List.getElem?_modify]
    cases words[i]? with
    | none => rfl
    | some w => by_cases hi : words.length - 1 = i <;> simp [hi, hf]
  unfold keepTrailing
  split
  · split
    · apply hmodify
      intro w
      split <;> rfl
    · rfl
  · rfl

/-! ## The sentence -/

/-- **A settled sentence has the words and the tags it had.** -/
theorem spaceless_settle (s : Sentence) :
    s.settle.words.map Word.spaceless = s.words.map Word.spaceless ∧
      s.settle.tags.map Tag.spaceless = s.tags.map Tag.spaceless := by
  unfold settle
  split
  · exact ⟨rfl, rfl⟩
  · have hrow := (spaceless_agreeSpaces _).trans
      (spaceless_shiftSpaces (interleave 0 (keepTrailing s.words s.tags) s.tags))
    have hwords := congrArg (List.filterMap Token.word?) hrow
    have htags := congrArg (List.filterMap Token.tag?) hrow
    unfold spaceless at hwords htags
    rw [Token.filterMap_word?_map, Token.filterMap_word?_map, filterMap_word?_interleave,
      spaceless_keepTrailing] at hwords
    rw [Token.filterMap_tag?_map, Token.filterMap_tag?_map, filterMap_tag?_interleave] at htags
    exact ⟨hwords, htags⟩

/-- A row that differs from that of a sentence in spaces alone is given back once it has been taken
apart. -/
theorem tokens_withTokens_of_spaceless {s : Sentence} {ts : List Token}
    (h : ts.map spaceless = s.tokens.map spaceless) : (s.withTokens ts).tokens = ts := by
  have hwords : (ts.filterMap Token.word?).map Word.spaceless = s.words.map Word.spaceless := by
    have hrow := congrArg (List.filterMap Token.word?) h
    unfold spaceless at hrow
    rwa [Token.filterMap_word?_map, Token.filterMap_word?_map, filterMap_word?_tokens] at hrow
  have htags : (ts.filterMap Token.tag?).map Tag.spaceless = s.tags.map Tag.spaceless := by
    have hrow := congrArg (List.filterMap Token.tag?) h
    unfold spaceless at hrow
    rwa [Token.filterMap_tag?_map, Token.filterMap_tag?_map, filterMap_tag?_tokens] at hrow
  have hspaceless : (s.withTokens ts).tokens.map spaceless = ts.map spaceless := by
    have hposition : ∀ t : Tag, t.spaceless.position = t.position := fun _ => rfl
    rw [h]
    unfold spaceless tokens
    rw [← interleave_map _ hposition, ← interleave_map _ hposition]
    exact congr (congrArg _ hwords) htags
  have hkinds := congrArg (List.map Token.cls) hspaceless
  simp only [List.map_map, Function.comp_def, Token.cls_spaceless] at hkinds
  exact Token.eq_of_filterMap_eq hkinds (filterMap_word?_tokens _) (filterMap_tag?_tokens _)

/-- **The row of a settled sentence**, whatever the order in which its tags are kept. -/
theorem tokens_settle {s : Sentence} (htags : s.tags ≠ []) :
    s.settle.tokens =
      agreeSpaces (shiftSpaces (interleave 0 (keepTrailing s.words s.tags) s.tags)) := by
  have hsome : s.tags.isEmpty = false := by simpa using htags
  rw [settle, hsome]
  exact tokens_withTokens_of_spaceless (s := { s with words := keepTrailing s.words s.tags })
    ((spaceless_agreeSpaces _).trans (spaceless_shiftSpaces _))

theorem bare_tags_settle (s : Sentence) : s.settle.tags.map Tag.bare = s.tags.map Tag.bare := by
  have h := congrArg (List.map Tag.bare) s.spaceless_settle.2
  rwa [List.map_map, List.map_map] at h

theorem position_tags_settle (s : Sentence) :
    s.settle.tags.map Tag.position = s.tags.map Tag.position := by
  have h := congrArg (List.map Tag.position) s.spaceless_settle.2
  rwa [List.map_map, List.map_map] at h

end Sentence

end MarkupTransfer
