import Mathlib.Data.List.TakeWhile
import MarkupTransfer.Proofs.Sentence.Showing
/-!
# What settling writes at the boundaries

Settling goes over a sentence four times: a blank is kept in front of the tags at its end, words get
back what they lost to a tag, spaces move past tags, and neighbours are made to agree. The first two
give some words another space on their right and may be done ahead of the others. What is left is
one walk that knows of the tokens behind it only what stands on the right of the last one: a tag
with nothing on its left gets nothing in front of it and hands over what it was given, unless it has
a space on its own right; in front of any other token stands what `Space.mergeSpace` makes of the
two sides.

* `settledAfter`, `settledRow`: the walk.
* `map_leftSpace_agreeSpaces_shiftSpaces`: moving spaces and making neighbours agree is that walk.
* `keepRow`, `interleave_keepTrailing`: the blank in front of the tags at the end, on the row.
* `map_leftSpace_settle`: what a settled sentence records in front of its tokens.
-/

namespace MarkupTransfer

open Space (mergeSpace TokenClass)

namespace Sentence

open Token (restored)

/-! ## One walk -/

/-- What settling writes in front of the tokens of a row that stands behind a token of kind `cls`
with a space `right` on its right. -/
def settledAfter (cls : TokenClass) (right : Option Space) : List Token → List (Option Space)
  | [] => []
  | .word w :: rest =>
    mergeSpace none right w.leftSpace cls .word :: settledAfter .word w.rightSpace rest
  | .tag t :: rest =>
    match t.leftSpace with
    | none => none :: settledAfter .tag (t.rightSpace.or right) rest
    | some left => mergeSpace none right (some left) cls .tag :: settledAfter .tag t.rightSpace rest

/-- What settling writes in front of the tokens of a row: nothing in front of the first one. -/
def settledRow : List Token → List (Option Space)
  | [] => []
  | x :: rest => none :: settledAfter x.cls x.rightSpace rest

@[simp] theorem length_settledAfter (cls : TokenClass) (right : Option Space) (ts : List Token) :
    (settledAfter cls right ts).length = ts.length := by
  induction ts generalizing cls right with
  | nil => rfl
  | cons x ts ih =>
    cases x with
    | word w => rw [settledAfter, List.length_cons, ih, List.length_cons]
    | tag t =>
      rw [settledAfter]
      split <;> rw [List.length_cons, ih, List.length_cons]

@[simp] theorem length_settledRow (ts : List Token) : (settledRow ts).length = ts.length := by
  cases ts <;> simp [settledRow]

/-- What is written behind a word does not depend on what stands in front of it. -/
theorem settledAfter_append_word (cls : TokenClass) (right : Option Space) (front : List Token)
    (w : Word) (behind : List Token) :
    settledAfter cls right (front ++ .word w :: behind) =
      settledAfter cls right (front ++ [.word w]) ++ settledAfter .word w.rightSpace behind := by
  induction front generalizing cls right with
  | nil => rfl
  | cons x front ih =>
    cases x with
    | word v => rw [List.cons_append, settledAfter, ih]; rfl
    | tag t =>
      rw [List.cons_append, settledAfter, List.cons_append, settledAfter]
      split <;> rw [ih] <;> rfl

theorem settledRow_append_word (front : List Token) (w : Word) (behind : List Token) :
    settledRow (front ++ .word w :: behind) =
      settledRow (front ++ [.word w]) ++ settledAfter .word w.rightSpace behind := by
  cases front with
  | nil => rfl
  | cons x front => rw [List.cons_append, settledRow, settledAfter_append_word]; rfl

/-- What neighbours that are made to agree record of their boundaries. -/
def agreed : List Token → List (Option Space)
  | x :: y :: ts => mergeSpace none x.rightSpace y.leftSpace x.cls y.cls :: agreed (y :: ts)
  | _ => []

theorem agreed_withLeftSpace (space : Option Space) (x : Token) (ts : List Token) :
    agreed (x.withLeftSpace space :: ts) = agreed (x :: ts) := by
  cases ts with
  | nil => rfl
  | cons y ts => simp [agreed]

theorem map_leftSpace_agreeAfter (previous : Token) (ts : List Token) :
    (agreeAfter previous ts).map Token.leftSpace =
      previous.leftSpace :: agreed (previous :: ts) := by
  induction ts generalizing previous with
  | nil => rfl
  | cons y ts ih =>
    rw [agreeAfter, List.map_cons, ih, agreed_withLeftSpace, agreed]
    simp

/-- Moving spaces leaves the first token what it is, but for the space on its right. -/
theorem exists_shiftAfter_eq (previous : Token) (ts : List Token) :
    ∃ x rest, shiftAfter previous ts = x :: rest ∧ x.leftSpace = previous.leftSpace ∧
      x.cls = previous.cls := by
  rcases ts with _ | ⟨_ | t, ts⟩
  · exact ⟨_, _, rfl, by simp⟩
  · exact ⟨_, _, rfl, rfl, rfl⟩
  · rw [shiftAfter]
    split
    · exact ⟨_, _, rfl, by simp⟩
    · exact ⟨_, _, rfl, rfl, rfl⟩

theorem agreed_cons_shiftAfter (x previous : Token) (ts : List Token) :
    agreed (x :: shiftAfter previous ts) =
      mergeSpace none x.rightSpace previous.leftSpace x.cls previous.cls ::
        agreed (shiftAfter previous ts) := by
  obtain ⟨y, rest, hrow, hleft, hkind⟩ := exists_shiftAfter_eq previous ts
  rw [hrow, agreed, hleft, hkind]

/-- Between two sides that know nothing there is nothing. -/
theorem mergeSpace_none (c d : TokenClass) : mergeSpace none none none c d = none := by
  cases c <;> cases d <;> rfl

/-- **Moving spaces and making neighbours agree is one walk.** -/
theorem agreed_shiftAfter (previous : Token) (ts : List Token) :
    agreed (shiftAfter previous ts) =
      settledAfter previous.cls previous.rightSpace (ts.map restored) := by
  induction ts generalizing previous with
  | nil => rfl
  | cons y ts ih =>
    cases y with
    | word w =>
      rw [shiftAfter, agreed_cons_shiftAfter, ih]
      rfl
    | tag t =>
      rw [shiftAfter, List.map_cons, Token.restored_tag, settledAfter]
      cases hleft : t.leftSpace with
      | some left =>
        have hkept : ¬ (previous.rightSpace.isSome && (some left).isNone) = true := by simp
        rw [if_neg hkept, agreed_cons_shiftAfter, ih]
        simp only [Token.leftSpace, Token.rightSpace, Token.cls, hleft]
      | none =>
        cases hright : previous.rightSpace with
        | some right =>
          have hmoved : ((some right).isSome && (none : Option Space).isNone) = true := rfl
          rw [if_pos hmoved, agreed_cons_shiftAfter, ih, Token.rightSpace_withRightSpace]
          simp only [Token.leftSpace, Token.rightSpace, Token.cls, mergeSpace_none,
            Option.orElse_eq_orElse, Option.orElse_eq_or]
        | none =>
          have hkept : ¬ ((none : Option Space).isSome && (none : Option Space).isNone) = true := by
            simp
          rw [if_neg hkept, agreed_cons_shiftAfter, ih, hright]
          simp only [Token.leftSpace, Token.rightSpace, Token.cls, hleft, mergeSpace_none,
            Option.or_none]

/-- **Settling is one walk** once words have got back what they lost. -/
theorem map_leftSpace_agreeSpaces_shiftSpaces (ts : List Token) :
    (agreeSpaces (shiftSpaces ts)).map Token.leftSpace = settledRow (ts.map restored) := by
  have hrow : ∀ previous rest, (agreeSpaces (shiftAfter previous rest)).map Token.leftSpace =
      none :: settledAfter previous.cls previous.rightSpace (rest.map restored) := by
    intro previous rest
    obtain ⟨x, us, hshift, -⟩ := exists_shiftAfter_eq previous rest
    rw [← agreed_shiftAfter, hshift, agreeSpaces, map_leftSpace_agreeAfter, agreed_withLeftSpace,
      Token.leftSpace_withLeftSpace]
  rcases ts with _ | ⟨w | t, ts⟩
  · rfl
  · exact hrow _ ts
  · exact hrow _ ts

/-! ## The blank in front of the last tags -/

/-- A word that has nothing on its right and nothing but tags behind it keeps a blank if the first
of them has a space on its left. -/
def keepBlank (w : Word) (behind : List Token) : Word :=
  if behind.all Token.isTag && (behind.head?.bind Token.leftSpace).isSome &&
      w.rightSpace.isNone then
    { w with rightSpace := some .blank }
  else w

/-- A row whose last word keeps a blank in front of the tags behind it. -/
def keepRow : List Token → List Token
  | [] => []
  | .word w :: rest => .word (keepBlank w rest) :: keepRow rest
  | .tag t :: rest => .tag t :: keepRow rest

theorem keepBlank_of_word {w v : Word} {behind : List Token} (h : .word v ∈ behind) :
    keepBlank w behind = w := by
  have hall : behind.all Token.isTag = false := List.all_eq_false.mpr ⟨_, h, by simp⟩
  rw [keepBlank, hall]
  rfl

theorem leftSpace_keepBlank (w : Word) (behind : List Token) :
    (keepBlank w behind).leftSpace = w.leftSpace := by
  unfold keepBlank
  split <;> rfl

theorem keepRow_map_tag (tags : List Tag) : keepRow (tags.map .tag) = tags.map .tag := by
  induction tags with
  | nil => rfl
  | cons t tags ih => rw [List.map_cons, keepRow, ih]

/-- Nothing is kept in front of a word. -/
theorem keepRow_append_word (front : List Token) (w : Word) (behind : List Token) :
    keepRow (front ++ .word w :: behind) =
      front ++ .word (keepBlank w behind) :: keepRow behind := by
  induction front with
  | nil => rfl
  | cons x front ih =>
    cases x with
    | word v => rw [List.cons_append, keepRow, ih, keepBlank_of_word (v := w) (by simp)]; rfl
    | tag t => rw [List.cons_append, keepRow, ih]; rfl

theorem dropWhile_dropWhile_of_imp {α : Type} {p q : α → Bool} (h : ∀ a, p a → q a) (l : List α) :
    (l.dropWhile p).dropWhile q = l.dropWhile q := by
  induction l with
  | nil => rfl
  | cons a l ih =>
    by_cases ha : p a
    · rw [List.dropWhile_cons_of_pos ha, ih, List.dropWhile_cons_of_pos (h a ha)]
    · rw [List.dropWhile_cons_of_neg ha]

/-- Where the words of a row end, whatever its last word is: the tags behind it are those from the
first on whose position has not been reached before. -/
theorem exists_interleave_concat (count : Nat) (words : List Word) (tags : List Tag) :
    ∃ front, ∀ w, interleave count (words ++ [w]) tags = front ++ .word w ::
      (tags.dropWhile fun t => t.position ≤ count + words.length).map .tag := by
  induction words generalizing count tags with
  | nil => exact ⟨_, fun w => rfl⟩
  | cons v words ih =>
    obtain ⟨front, hfront⟩ := ih (count + 1) (tags.dropWhile fun t => t.position ≤ count)
    have hrest : (tags.dropWhile fun t => t.position ≤ count).dropWhile
        (fun t => t.position ≤ count + 1 + words.length) =
        tags.dropWhile fun t => t.position ≤ count + (v :: words).length := by
      rw [dropWhile_dropWhile_of_imp fun t ht => ?_]
      · simp only [List.length_cons, Nat.add_assoc, Nat.add_comm 1]
      · simp only [decide_eq_true_eq] at ht ⊢
        omega
    rw [hrest] at hfront
    refine ⟨(tags.takeWhile fun t => t.position ≤ count).map .tag ++ .word v :: front, fun w => ?_⟩
    rw [List.cons_append, interleave, hfront]
    simp

/-- What keeps the blank is the last word of the list, and the first tag behind it in the order of
the list comes first in the row as well. -/
theorem keepTrailing_concat (words : List Word) (w : Word) (tags : List Tag) :
    keepTrailing (words ++ [w]) tags = words ++
      [keepBlank w ((tags.dropWhile fun t => t.position ≤ words.length).map .tag)] := by
  have hfirst : (tags.find? fun t => (words ++ [w]).length ≤ t.position) =
      (tags.dropWhile fun t => t.position ≤ words.length).head? := by
    rw [List.find?_eq_head?_dropWhile_not]
    congr 2
    funext t
    simp only [List.length_append, List.length_singleton, ← decide_not, decide_eq_decide]
    omega
  have hkept : ∀ first behind, keepBlank w (((first :: behind).map .tag)) =
      if first.leftSpace.isSome then
        if w.rightSpace.isSome then w else { w with rightSpace := some .blank }
      else w := by
    intro first behind
    have hall : ((first :: behind).map Token.tag).all Token.isTag = true := by simp
    rw [keepBlank, hall]
    cases hleft : first.leftSpace <;> cases hright : w.rightSpace <;>
      simp [Token.leftSpace, hleft]
  rw [keepTrailing, hfirst]
  cases tags.dropWhile fun t => t.position ≤ words.length with
  | nil => rfl
  | cons first behind =>
    rw [hkept]
    show (if first.leftSpace.isSome then _ else _) = _
    split
    · exact modifyLast_concat _ words w
    · rfl

/-- **Keeping a blank on the last word is keeping one in the row.** -/
theorem interleave_keepTrailing (words : List Word) (tags : List Tag) :
    interleave 0 (keepTrailing words tags) tags = keepRow (interleave 0 words tags) := by
  rcases List.eq_nil_or_concat' words with rfl | ⟨ws, w, rfl⟩
  · have hnone : keepTrailing [] tags = [] := by
      unfold keepTrailing
      split
      · split <;> rfl
      · rfl
    rw [hnone]
    exact (keepRow_map_tag tags).symm
  · obtain ⟨front, hfront⟩ := exists_interleave_concat 0 ws tags
    rw [keepTrailing_concat, hfront, hfront, keepRow_append_word, keepRow_map_tag, Nat.zero_add]

/-! ## The sentence -/

/-- **What a settled sentence records in front of its tokens.** -/
theorem map_leftSpace_settle {s : Sentence} (htags : s.tags ≠ []) :
    s.settle.tokens.map Token.leftSpace = settledRow ((keepRow s.tokens).map restored) := by
  rw [tokens_settle htags, map_leftSpace_agreeSpaces_shiftSpaces, interleave_keepTrailing]
  rfl

end Sentence

end MarkupTransfer
