import MarkupTransfer.Proofs.Markup.Escape
import MarkupTransfer.Proofs.Sentence.Showing
import MarkupTransfer.Proofs.Sentence.Stripped
/-!
# Sentences without tags

A sentence is shown with its markup or without it by two walks, one that looks back at the last
token and one that carries a space from tag to tag. Without tags the second one has nothing to
carry: behind a word it knows the right space of this word only. So both put the same texts in front
of the words, whichever form these are shown in, and the walk that shows markup does no more than to
escape the words.

* `gaps`, `closing`: what both show around the words.
* `markup_of_no_tags`, `stripped_of_no_tags`: what each of them shows.
* `shows_alike_of_no_tags`: both together, and when they show the same.
-/

namespace MarkupTransfer

open Space (merge)

namespace Sentence

/-! ## Words in a row -/

/-- What stands in front of each of the words behind a word. -/
def gapsAfter (v : Word) : List Word → List Text
  | [] => []
  | w :: words => Space.shown? (merge v.rightSpace w.leftSpace) :: gapsAfter w words

/-- What stands in front of each word of a row: the outer space of the first one, and between two
neighbours what is made of the two spaces that face each other. -/
def gaps : List Word → List Text
  | [] => []
  | w :: words => Space.literalOnly w.leftSpace :: gapsAfter w words

/-- What stands behind a row of words: the outer space of the last one. -/
def closing (words : List Word) : Text := Space.literalOnly (words.getLast?.bind Word.rightSpace)

/-- Words in some form, each behind a text. -/
def shownAs (form : Word → Text) (leads : List Text) (words : List Word) : Text :=
  (List.zipWith (fun lead w => lead ++ form w) leads words).flatten

theorem shownAs_cons (form : Word → Text) (lead : Text) (leads : List Text) (w : Word)
    (words : List Word) : shownAs form (lead :: leads) (w :: words) =
      lead ++ form w ++ shownAs form leads words := rfl

theorem shownBehind_eq_shownAs (placeholders : Bool) (leads : List Text) (words : List Word) :
    shownBehind placeholders leads words = shownAs (·.surface placeholders) leads words := rfl

theorem length_gapsAfter (v : Word) (words : List Word) :
    (gapsAfter v words).length = words.length := by
  induction words generalizing v with
  | nil => rfl
  | cons w words ih => rw [gapsAfter, List.length_cons, List.length_cons, ih]

theorem length_gaps (words : List Word) : (gaps words).length = words.length := by
  cases words with
  | nil => rfl
  | cons w words => rw [gaps, List.length_cons, List.length_cons, length_gapsAfter]

section Forms

variable {form form' : Word → Text} {leads : List Text} {words : List Word}

theorem length_shownAs_le (hle : ∀ w, (form' w).length ≤ (form w).length) (leads : List Text)
    (words : List Word) :
    (shownAs form' leads words).length ≤ (shownAs form leads words).length := by
  induction words generalizing leads with
  | nil => cases leads <;> exact Nat.le_refl 0
  | cons w words ih =>
    cases leads with
    | nil => exact Nat.le_refl 0
    | cons lead leads =>
      have hword := hle w
      have hrest := ih leads
      simp only [shownAs_cons, List.length_append]
      omega

/-- **Two forms show the same** just if they give each word alike, provided that one of them gives
no word a shorter text than the other. -/
theorem shownAs_eq_iff (hle : ∀ w, (form' w).length ≤ (form w).length)
    (hlength : leads.length = words.length) :
    shownAs form leads words = shownAs form' leads words ↔ ∀ w ∈ words, form w = form' w := by
  induction words generalizing leads with
  | nil =>
    obtain rfl := List.length_eq_zero_iff.mp hlength
    exact iff_of_true rfl nofun
  | cons w words ih =>
    obtain ⟨lead, leads, rfl⟩ := List.exists_cons_of_length_eq_add_one hlength
    rw [List.forall_mem_cons, ← ih (Nat.succ.inj hlength), shownAs_cons, shownAs_cons,
      List.append_assoc, List.append_assoc, List.append_right_inj]
    constructor
    · intro h
      -- Neither the word nor what follows is longer in the second form, so both are as long.
      have hsum := congrArg List.length h
      have hword := hle w
      have hrest := length_shownAs_le hle leads words
      rw [List.length_append, List.length_append] at hsum
      exact List.append_inj h (by omega)
    · rintro ⟨hword, hrest⟩
      rw [hword, hrest]

end Forms

/-! ## Both ways of showing -/

variable {s : Sentence}

theorem interleave_nil (count : Nat) (words : List Word) :
    interleave count words [] = words.map .word := by
  induction words generalizing count with
  | nil => rfl
  | cons w words ih => exact congrArg (Token.word w :: ·) (ih (count + 1))

theorem tokens_of_no_tags (htags : s.tags = []) : s.tokens = s.words.map .word := by
  rw [tokens, htags, interleave_nil]

theorem backSpace_map_word (words : List Word) : backSpace (words.map .word) = closing words := by
  rw [backSpace, closing, List.getLast?_map, Option.bind_map]
  rfl

theorem coreAfter_map_word (placeholders : Bool) (v : Word) (words : List Word) :
    coreAfter placeholders (.word v) (words.map .word) =
      shownAs (fun w => Markup.escape (w.surface placeholders)) (gapsAfter v words) words := by
  induction words generalizing v with
  | nil => rfl
  | cons w words ih =>
    rw [List.map_cons, coreAfter, ih, gapsAfter, shownAs_cons, List.append_assoc]
    rfl

/-- **With markup**: the words escaped. -/
theorem markup_of_no_tags (htags : s.tags = []) (hconsistent : s.spaceConsistent = false)
    (placeholders : Bool) : s.markup placeholders =
      shownAs (fun w => Markup.escape (w.surface placeholders)) (gaps s.words) s.words ++
        closing s.words := by
  rw [markup, hconsistent, tokens_of_no_tags htags, markupOf_eq_core, backSpace_map_word]
  cases s.words with
  | nil => rfl
  | cons w words =>
    rw [List.map_cons, core, coreAfter_map_word, gaps, shownAs_cons,
      List.append_assoc _ _ (shownAs _ _ _)]
    rfl

theorem leadsAfter_map_word (v : Word) (words : List Word) :
    leadsAfter (.behind v) (words.map .word) = gapsAfter v words := by
  induction words generalizing v with
  | nil => rfl
  | cons w words ih => rw [List.map_cons, leadsAfter, ih, lead_behind, gapsAfter]

theorem leadsOf_map_word (words : List Word) : leadsOf (words.map .word) = gaps words := by
  cases words with
  | nil => rfl
  | cons w words => rw [List.map_cons, leadsOf, leadsAfter_map_word, gaps]

/-- **Without markup**: the words as they are. -/
theorem stripped_of_no_tags (htags : s.tags = []) (placeholders : Bool) :
    s.stripped placeholders =
      shownAs (·.surface placeholders) (gaps s.words) s.words ++ closing s.words := by
  have houter : outerRight s.tokens = s.words.getLast?.bind Word.rightSpace := by
    rw [outerRight, tokens_of_no_tags htags, List.getLast?_map, Option.bind_map]
    cases s.words.getLast? <;> rfl
  rw [stripped, strippedOf_eq, filterMap_word?_tokens, houter, tokens_of_no_tags htags,
    leadsOf_map_word, shownBehind_eq_shownAs, closing]

/-- **Without tags both ways of showing agree** on all that stands around the words: they put the
same texts in front of the words, which are the same for both forms of them, and the same text
behind the last one. With markup each word is escaped, and so what is shown is the same just if no
word has a character to escape. -/
theorem shows_alike_of_no_tags (htags : s.tags = []) (hconsistent : s.spaceConsistent = false)
    (placeholders : Bool) :
    s.markup placeholders =
      shownAs (fun w => Markup.escape (w.surface placeholders)) (gaps s.words) s.words ++
        closing s.words ∧
    s.stripped placeholders =
      shownAs (·.surface placeholders) (gaps s.words) s.words ++ closing s.words ∧
    (s.markup placeholders = s.stripped placeholders ↔
      ∀ w ∈ s.words, ∀ c ∈ w.surface placeholders, Markup.isSpecial c = false) := by
  refine ⟨markup_of_no_tags htags hconsistent placeholders, stripped_of_no_tags htags placeholders,
    ?_⟩
  rw [markup_of_no_tags htags hconsistent, stripped_of_no_tags htags, List.append_left_inj,
    shownAs_eq_iff (fun w => Markup.length_le_length_escape _) (length_gaps s.words)]
  exact forall₂_congr fun w _ => Markup.escape_eq_self_iff

/-- Neighbours that record different spaces, outer spaces with characters and without, and a word
that only its placeholder has to be escaped for. -/
def unlikeNeighbours : Sentence where
  words :=
    [.ofText (some ['a']) ['&'] (some (.literal ['\t'])) (some .virtual),
      .ofText none ['b'] none (some (.literal ['\n'])),
      .ofText none ['c'] (some .blank) (some .virtual)]
  tags := []
  spaceConsistent := false
  annotations := .empty

theorem shows_alike_of_no_tags_unlikeNeighbours :
    gaps unlikeNeighbours.words = [['\t'], [' '], ['\n', ' ']] ∧
    closing unlikeNeighbours.words = [] ∧
    unlikeNeighbours.markup false = unlikeNeighbours.stripped false ∧
    unlikeNeighbours.markup true ≠ unlikeNeighbours.stripped true := by
  refine ⟨rfl, rfl, ?_, fun hsame => ?_⟩
  · refine (shows_alike_of_no_tags rfl rfl false).2.2.mpr ?_
    simp [unlikeNeighbours, Word.ofText, Word.surface, Markup.isSpecial]
  · have hmild := (shows_alike_of_no_tags rfl rfl true).2.2.mp hsame
    simp [unlikeNeighbours, Word.ofText, Word.surface, Markup.isSpecial] at hmild

end Sentence

end MarkupTransfer
