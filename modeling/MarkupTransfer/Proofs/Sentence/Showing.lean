import MarkupTransfer.Proofs.Sentence.Coherence
/-!
# What a settled sentence is shown as

Settling moves spaces past tags, gives words back what they lost to a tag, and writes one space to
both sides of every boundary. Where neighbours agree already, as those of a text do, no space has to
be moved. All that shows is then that the outermost spaces are gone, and that a flagged word whose
tag follows it directly has got a blank.

* `markupOf_eq_core`: what is shown of a row of tokens, and of the spaces at its two ends.
* `markupOf_agreeSpaces`: a boundary is shown as it would have been without being written.
* `Token.Adjoins`: what neighbours that come from a text say about their boundary.
* `markup_settle`: what a sentence of such neighbours is shown as once it is settled.
-/

namespace MarkupTransfer

open Space (mergeSpace)

namespace Sentence

variable {placeholders : Bool}

/-! ## Rows of tokens -/

/-- What stands between two neighbours, as it is shown. -/
def boundary (x y : Token) : Text :=
  Space.shown? (mergeSpace none x.rightSpace y.leftSpace x.cls y.cls)

/-- What is shown of the tokens behind a token, up to the last of them. -/
def coreAfter (placeholders : Bool) (previous : Token) : List Token → Text
  | [] => []
  | token :: rest =>
    boundary previous token ++ (markupForm placeholders token ++ coreAfter placeholders token rest)

/-- Tokens with their markup, without the spaces at the two ends. -/
def core (placeholders : Bool) : List Token → Text
  | [] => []
  | first :: rest => markupForm placeholders first ++ coreAfter placeholders first rest

/-- The literal space on the left of the first token. -/
def frontSpace (ts : List Token) : Text := Space.literalOnly (ts.head?.bind Token.leftSpace)

/-- The literal space on the right of the last token. -/
def backSpace (ts : List Token) : Text := Space.literalOnly (ts.getLast?.bind Token.rightSpace)

theorem backSpace_eq (ts : List Token) : backSpace ts = Space.literalOnly (endSpace ts) := rfl

theorem backSpace_cons_cons (x y : Token) (ts : List Token) :
    backSpace (x :: y :: ts) = backSpace (y :: ts) := by
  rw [backSpace_eq, backSpace_eq, endSpace_cons (List.cons_ne_nil y ts)]

theorem markupAfter_eq_core (x : Token) (ts : List Token) :
    markupAfter false placeholders x ts = coreAfter placeholders x ts ++ backSpace (x :: ts) := by
  induction ts generalizing x with
  | nil => rfl
  | cons y ts ih =>
    rw [markupAfter, ih, coreAfter, backSpace_cons_cons, if_neg Bool.false_ne_true]
    simp only [boundary, List.append_assoc]

/-- **What is shown of a row of tokens**, and of the spaces at its two ends. -/
theorem markupOf_eq_core (ts : List Token) :
    markupOf false placeholders ts = frontSpace ts ++ core placeholders ts ++ backSpace ts := by
  cases ts with
  | nil => rfl
  | cons x ts =>
    rw [markupOf, markupAfter_eq_core, core]
    simp only [frontSpace, List.head?_cons, Option.bind_some, List.append_assoc]

/-- What comes behind a token does not depend on the space on its left. -/
theorem coreAfter_withLeftSpace (space : Option Space) (x : Token) (ts : List Token) :
    coreAfter placeholders (x.withLeftSpace space) ts = coreAfter placeholders x ts := by
  cases ts with
  | nil => rfl
  | cons y ts => simp [coreAfter, boundary]

theorem markupForm_withLeftSpace (space : Option Space) (x : Token) :
    markupForm placeholders (x.withLeftSpace space) = markupForm placeholders x := by
  cases x <;> rfl

theorem markupForm_withRightSpace (space : Option Space) (x : Token) :
    markupForm placeholders (x.withRightSpace space) = markupForm placeholders x := by
  cases x <;> rfl

theorem backSpace_withLeftSpace (space : Option Space) (x : Token) (ts : List Token) :
    backSpace (x.withLeftSpace space :: ts) = backSpace (x :: ts) := by
  rw [backSpace_eq, backSpace_eq, endSpace_withLeftSpace]

theorem markupAfter_agreeAfter (x previous : Token) (ts : List Token) :
    markupAfter true placeholders x (agreeAfter previous ts) =
      Space.shown? previous.leftSpace ++ (markupForm placeholders previous ++
        (coreAfter placeholders previous ts ++ backSpace (previous :: ts))) := by
  induction ts generalizing x previous with
  | nil =>
    simp only [agreeAfter, markupAfter, coreAfter, backSpace, if_true, List.append_assoc]
    rfl
  | cons token ts ih =>
    rw [agreeAfter, markupAfter, ih, if_pos rfl, coreAfter_withLeftSpace, backSpace_withLeftSpace,
      markupForm_withLeftSpace, markupForm_withRightSpace, coreAfter, backSpace_cons_cons]
    simp only [Token.leftSpace_withRightSpace, Token.leftSpace_withLeftSpace, boundary,
      List.append_assoc]

/-- **A boundary is shown as it would have been without being written to both sides.** -/
theorem markupOf_agreeSpaces (ts : List Token) :
    markupOf true placeholders (agreeSpaces ts) = core placeholders ts ++ backSpace ts := by
  cases ts with
  | nil => rfl
  | cons x ts =>
    cases ts with
    | nil =>
      rw [agreeSpaces, agreeAfter, markupOf, markupForm_withLeftSpace,
        Token.leftSpace_withLeftSpace]
      simp only [markupAfter, Token.rightSpace_withLeftSpace, core, coreAfter, List.append_nil]
      rfl
    | cons y ts =>
      rw [agreeSpaces, agreeAfter, markupOf, markupAfter_agreeAfter, coreAfter_withLeftSpace,
        backSpace_withLeftSpace, markupForm_withLeftSpace, markupForm_withRightSpace,
        markupForm_withLeftSpace, core, coreAfter, backSpace_cons_cons]
      simp only [Token.leftSpace_withRightSpace, Token.leftSpace_withLeftSpace, boundary,
        Token.rightSpace_withLeftSpace, Token.cls_withLeftSpace, List.append_assoc]
      rfl

end Sentence

/-! ## Neighbours that agree -/

namespace Token

/-- Whether a token is a word with a tag behind it that has a space on its right. -/
def isFlagged : Token → Bool
  | word w => w.tagRightSpaceRequired
  | tag _ => false

/-- What neighbours that come from a text say about their boundary. Both say the same; without
characters it has a space just if one of them is a word and the other a tag; and a word is flagged
only in front of a tag. -/
structure Adjoins (x y : Token) : Prop where
  agree : x.rightSpace = y.leftSpace
  none : x.rightSpace = none → x.cls = y.cls
  virtual : x.rightSpace = some .virtual → x.cls ≠ y.cls
  flagged : x.isFlagged = true → y.cls = .tag

/-- A token that has got back the space which it lost to a tag. -/
def restored : Token → Token := map Sentence.restoreSpace id

/-- A flagged word with a blank where it touches its tag. -/
def spaced (t : Token) : Token :=
  if t.isFlagged ∧ t.rightSpace = some .virtual then t.withRightSpace (some .blank) else t

/-- A row without the space on the right of its last token. -/
def trimBack : List Token → List Token
  | [] => []
  | [x] => [x.withRightSpace Option.none]
  | x :: y :: ts => x :: trimBack (y :: ts)

theorem restored_tag (t : Tag) : (tag t).restored = tag t := rfl

@[simp] theorem cls_restored (t : Token) : t.restored.cls = t.cls := by
  cases t <;> rfl

@[simp] theorem leftSpace_restored (t : Token) : t.restored.leftSpace = t.leftSpace := by
  cases t with
  | tag t => rfl
  | word w =>
    show (Sentence.restoreSpace w).leftSpace = w.leftSpace
    unfold Sentence.restoreSpace
    split <;> rfl

theorem rightSpace_restored (t : Token) :
    t.restored.rightSpace = if t.isFlagged then some .blank else t.rightSpace := by
  cases t with
  | tag t => rfl
  | word w =>
    show (Sentence.restoreSpace w).rightSpace = _
    unfold Sentence.restoreSpace isFlagged
    split <;> rfl

@[simp] theorem isFlagged_withLeftSpace (s : Option Space) (t : Token) :
    (t.withLeftSpace s).isFlagged = t.isFlagged := by
  cases t <;> rfl

@[simp] theorem cls_spaced (t : Token) : t.spaced.cls = t.cls := by
  unfold spaced
  split <;> simp

@[simp] theorem leftSpace_spaced (t : Token) : t.spaced.leftSpace = t.leftSpace := by
  unfold spaced
  split <;> simp

theorem rightSpace_spaced (t : Token) : t.spaced.rightSpace =
    if t.isFlagged ∧ t.rightSpace = some .virtual then some .blank else t.rightSpace := by
  unfold spaced
  split <;> simp

/-- Whether a token is a flagged word that touches its tag. -/
def touchesTag (t : Token) : Bool := t.isFlagged && t.rightSpace == some .virtual

theorem touchesTag_iff {t : Token} :
    t.touchesTag = true ↔ t.isFlagged ∧ t.rightSpace = some .virtual := by
  simp [touchesTag]

/-- A flagged word and its tag record a space. -/
theorem Adjoins.exists_space {x y : Token} (h : Adjoins x y) (hflag : x.isFlagged = true) :
    x.cls = .word ∧ y.cls = .tag ∧
      ∃ space, x.rightSpace = some space ∧ y.leftSpace = some space := by
  have htag := h.flagged hflag
  have hword : x.cls = .word := by
    cases x with
    | word w => rfl
    | tag t => cases hflag
  refine ⟨hword, htag, ?_⟩
  cases hright : x.rightSpace with
  | none => exact absurd ((hword.symm.trans (h.none hright)).trans htag) nofun
  | some space => exact ⟨space, rfl, h.agree ▸ hright⟩

end Token

namespace Sentence

open Token (Adjoins restored trimBack)

variable {placeholders : Bool} {x : Token} {ts : List Token}

theorem coreAfter_trimBack (x : Token) (ts : List Token) :
    coreAfter placeholders x (trimBack ts) = coreAfter placeholders x ts := by
  induction ts generalizing x with
  | nil => rfl
  | cons y ts ih =>
    cases ts with
    | nil => simp [trimBack, coreAfter, boundary, markupForm_withRightSpace]
    | cons z ts => rw [trimBack, coreAfter, coreAfter, ih]

theorem core_trimBack (ts : List Token) :
    core placeholders (trimBack ts) = core placeholders ts := by
  cases ts with
  | nil => rfl
  | cons x ts =>
    cases ts with
    | nil => simp [trimBack, core, coreAfter, markupForm_withRightSpace]
    | cons y ts => rw [trimBack, core, core, coreAfter_trimBack]

/-- **Where neighbours agree no space has to be moved.** -/
theorem shiftAfter_eq (h : (x :: ts).IsChain Adjoins) :
    shiftAfter x.restored ts = trimBack ((x :: ts).map restored) := by
  induction ts generalizing x with
  | nil => rfl
  | cons y ts ih =>
    obtain ⟨hxy, hrest⟩ := List.isChain_cons_cons.mp h
    have hnext := ih hrest
    cases y with
    | word w =>
      rw [shiftAfter]
      exact congrArg _ hnext
    | tag t =>
      have hkept : ¬ (x.restored.rightSpace.isSome && t.leftSpace.isNone) = true := by
        intro hmoved
        obtain ⟨hsome, hnone⟩ := Bool.and_eq_true_iff.mp hmoved
        have hright : x.rightSpace = none := by
          rw [hxy.agree]
          exact Option.isNone_iff_eq_none.mp hnone
        cases x with
        | word w => cases hxy.none hright
        | tag u =>
          rw [Token.restored_tag, hright] at hsome
          cases hsome
      rw [shiftAfter, if_neg hkept]
      exact congrArg _ hnext

theorem isChain_withLeftSpace (space : Option Space) (h : (x :: ts).IsChain Adjoins) :
    (x.withLeftSpace space :: ts).IsChain Adjoins := by
  cases ts with
  | nil => exact .singleton _
  | cons y ts =>
    obtain ⟨hxy, hrest⟩ := List.isChain_cons_cons.mp h
    refine List.isChain_cons_cons.mpr ⟨⟨?_, ?_, ?_, ?_⟩, hrest⟩
    · simpa using hxy.agree
    · simpa using hxy.none
    · simpa using hxy.virtual
    · simpa using hxy.flagged

/-- Moving spaces does no more to a row whose neighbours agree than to give words their spaces back
and to trim its outer edges. -/
theorem core_shiftSpaces (h : ts.IsChain Adjoins) :
    core placeholders (shiftSpaces ts) = core placeholders (ts.map restored) := by
  cases ts with
  | nil => rfl
  | cons x ts =>
    cases x with
    | word w =>
      have hrow : shiftSpaces (.word w :: ts) = trimBack ((.word w :: ts).map restored) :=
        shiftAfter_eq h
      rw [hrow, core_trimBack]
    | tag t =>
      have hrow : shiftSpaces (.tag t :: ts) =
          trimBack (((Token.tag t).withLeftSpace none :: ts).map restored) :=
        shiftAfter_eq (isChain_withLeftSpace none h)
      rw [hrow, core_trimBack, List.map_cons, List.map_cons, core, core]
      exact congrArg _ (coreAfter_withLeftSpace none (.tag t) _)

/-! ## Flagged words -/

theorem markupForm_restored (x : Token) :
    markupForm placeholders x.restored = markupForm placeholders x := by
  cases x with
  | tag t => rfl
  | word w =>
    show Markup.escape ((restoreSpace w).surface placeholders) = _
    unfold restoreSpace
    split <;> rfl

theorem markupForm_spaced (x : Token) :
    markupForm placeholders x.spaced = markupForm placeholders x := by
  unfold Token.spaced
  split
  · exact markupForm_withRightSpace _ x
  · rfl

/-- A flagged word gets back no more than a blank where it touches its tag. -/
theorem boundary_restored {x y : Token} (h : Adjoins x y) :
    boundary x.restored y.restored = boundary x.spaced y.spaced := by
  simp only [boundary, Token.cls_restored, Token.leftSpace_restored, Token.cls_spaced,
    Token.leftSpace_spaced, Token.rightSpace_restored, Token.rightSpace_spaced]
  by_cases hflag : x.isFlagged = true
  · obtain ⟨hword, htag, space, hright, hleft⟩ := h.exists_space hflag
    rw [if_pos hflag, hword, htag, hright, hleft]
    cases space with
    | virtual => rw [if_pos ⟨hflag, rfl⟩]
    | literal text =>
      rw [if_neg fun hvirtual => nomatch hvirtual.2]
      rfl
  · rw [if_neg hflag, if_neg fun hboth => hflag hboth.1]

/-- A blank that was given to a word is shown behind it. -/
theorem boundary_spaced {x y : Token} (h : Adjoins x y) :
    boundary x.spaced y.spaced = boundary x y ++ if x.touchesTag then [' '] else [] := by
  simp only [boundary, Token.cls_spaced, Token.leftSpace_spaced, Token.rightSpace_spaced,
    Token.touchesTag_iff]
  split
  · next htouches =>
    obtain ⟨hword, htag, space, hright, hleft⟩ := h.exists_space htouches.1
    rw [hword, htag, hleft, htouches.2]
    obtain rfl : space = .virtual := Option.some.inj (hright.symm.trans htouches.2)
    rfl
  · rw [List.append_nil]

theorem coreAfter_restored (h : (x :: ts).IsChain Adjoins) :
    coreAfter placeholders x.restored (ts.map restored) =
      coreAfter placeholders x.spaced (ts.map Token.spaced) := by
  induction ts generalizing x with
  | nil => rfl
  | cons y ts ih =>
    obtain ⟨hxy, hrest⟩ := List.isChain_cons_cons.mp h
    rw [List.map_cons, List.map_cons, coreAfter, coreAfter, boundary_restored hxy, ih hrest,
      markupForm_restored, markupForm_spaced]

/-- Words that get their spaces back are shown with a blank where they touch their tags. -/
theorem core_restored (h : ts.IsChain Adjoins) :
    core placeholders (ts.map restored) = core placeholders (ts.map Token.spaced) := by
  cases ts with
  | nil => rfl
  | cons x ts =>
    rw [List.map_cons, List.map_cons, core, core, coreAfter_restored h, markupForm_restored,
      markupForm_spaced]

theorem length_coreAfter_spaced (h : (x :: ts).IsChain Adjoins)
    (hlast : ∀ y ∈ (x :: ts).getLast?, y.rightSpace ≠ some .virtual) :
    (coreAfter placeholders x.spaced (ts.map Token.spaced)).length =
      (coreAfter placeholders x ts).length + (x :: ts).countP Token.touchesTag := by
  induction ts generalizing x with
  | nil =>
    have hx : ¬ x.touchesTag = true := fun htouches =>
      hlast x rfl (Token.touchesTag_iff.mp htouches).2
    rw [List.countP_cons_of_neg hx]
    rfl
  | cons y ts ih =>
    obtain ⟨hxy, hrest⟩ := List.isChain_cons_cons.mp h
    have hnext := ih hrest (by simpa only [List.getLast?_cons_cons] using hlast)
    simp only [List.map_cons, coreAfter, boundary_spaced hxy, markupForm_spaced,
      List.length_append, hnext]
    rw [List.countP_cons (a := x)]
    split <;> simp <;> omega

/-- **The blanks given to words are all that shows**: as many as there are flagged words that touch
their tags. -/
theorem length_core_spaced (h : ts.IsChain Adjoins)
    (hlast : ∀ y ∈ ts.getLast?, y.rightSpace ≠ some .virtual) :
    (core placeholders (ts.map Token.spaced)).length =
      (core placeholders ts).length + ts.countP Token.touchesTag := by
  cases ts with
  | nil => rfl
  | cons x ts =>
    rw [List.map_cons, core, core, List.length_append, List.length_append,
      length_coreAfter_spaced h hlast, markupForm_spaced, Nat.add_assoc]

/-- Nothing is changed just where no flagged word touches its tag. -/
theorem core_spaced_eq_iff (h : ts.IsChain Adjoins)
    (hlast : ∀ y ∈ ts.getLast?, y.rightSpace ≠ some .virtual) :
    core placeholders (ts.map Token.spaced) = core placeholders ts ↔
      ∀ y ∈ ts, y.touchesTag = false := by
  constructor
  · intro hsame
    have hlength := @length_core_spaced placeholders ts h hlast
    rw [hsame] at hlength
    have hnone : ts.countP Token.touchesTag = 0 := by omega
    simpa using List.countP_eq_zero.mp hnone
  · intro hnone
    have hkept : ts.map Token.spaced = ts := by
      refine (List.map_congr_left fun y hy => ?_).trans (List.map_id _)
      have hy := hnone y hy
      rw [Token.spaced, if_neg fun htouches => ?_]
      · rfl
      · simp [Token.touchesTag_iff.mpr htouches] at hy
    rw [hkept]

/-! ## The sentence -/

theorem modifyLast_concat (f : Word → Word) (ws : List Word) (w : Word) :
    modifyLast f (ws ++ [w]) = ws ++ [f w] := by
  rw [modifyLast, List.length_append, List.length_singleton, Nat.add_sub_cancel]
  induction ws with
  | nil => rfl
  | cons v ws ih => rw [List.cons_append, List.length_cons, List.modify_succ_cons, ih]; rfl

/-- A row with words ends in its last word and tags. -/
theorem exists_last_word {ws : List Word} {w : Word} (h : ts.filterMap Token.word? = ws ++ [w]) :
    ∃ front back, ts = front ++ .word w :: back ∧ front.filterMap Token.word? = ws ∧
      ∀ y ∈ back, y.word? = none := by
  obtain ⟨front, back, rfl, hfront, hback⟩ := List.filterMap_eq_append_iff.mp h
  obtain ⟨tags, y, rest, rfl, htags, hy, hrest⟩ := List.filterMap_eq_cons_iff.mp hback
  have hword : y = .word w := by
    cases y with
    | word v => exact congrArg _ (Option.some.inj hy)
    | tag t => cases hy
  refine ⟨front ++ tags, rest, by rw [hword, List.append_assoc], ?_,
    List.filterMap_eq_nil_iff.mp hrest⟩
  rw [List.filterMap_append, hfront, List.filterMap_eq_nil_iff.mpr htags, List.append_nil]

/-- A word with nothing but tags behind it has a space on its right. -/
theorem isSome_rightSpace_of_tags {front back : List Token} {w : Word}
    (h : (front ++ .word w :: back).IsChain Adjoins) (htags : ∀ y ∈ back, y.word? = none)
    (hback : back ≠ []) : w.rightSpace.isSome = true := by
  obtain ⟨y, back, rfl⟩ := List.exists_cons_of_ne_nil hback
  have hwy : Adjoins (.word w) y := (List.isChain_append_cons_cons.mp h).2.1
  cases y with
  | word v => exact absurd (htags _ (List.mem_cons_self ..)) nofun
  | tag u =>
    rw [Option.isSome_iff_ne_none]
    exact fun hnone => absurd (hwy.none hnone) nofun

/-- A last word with a tag behind it has a space on its right already. -/
theorem keepTrailing_eq {s : Sentence} (hnumbered : Token.IsNumbered 0 s.tokens)
    (h : s.tokens.IsChain Adjoins) (hwords : s.words ≠ []) :
    keepTrailing s.words s.tags = s.words := by
  obtain ⟨ws, w, hws⟩ := (List.eq_nil_or_concat' s.words).resolve_left hwords
  unfold keepTrailing
  split
  · next t ht =>
    split
    · have hlength : ws.length < t.position := by
        have := List.find?_some ht
        simp only [hws, List.length_append, List.length_singleton, decide_eq_true_eq] at this
        omega
      obtain ⟨front, back, htokens, hfront, hback⟩ :=
        exists_last_word (s.filterMap_word?_tokens.trans hws)
      have hmem := tag_mem_tokens_iff.mpr (List.mem_of_find?_eq_some ht)
      rw [htokens] at hnumbered h hmem
      have hbehind : .tag t ∈ back := by
        rcases List.mem_append.mp hmem with hmem | hmem
        · have := hnumbered.position_le hmem
          rw [hfront] at this
          omega
        · simpa using hmem
      have hright := isSome_rightSpace_of_tags h hback (List.ne_nil_of_mem hbehind)
      rw [hws, modifyLast_concat, if_pos hright]
    · rfl
  · rfl

/-- **A sentence whose neighbours agree is shown after settling as before**, but for the spaces at
its two ends and a blank behind each flagged word that touches its tag. -/
theorem markup_settle {s : Sentence} (hnumbered : Token.IsNumbered 0 s.tokens)
    (h : s.tokens.IsChain Adjoins) (hwords : s.words ≠ []) (htags : s.tags ≠ []) :
    s.settle.markup placeholders = core placeholders (s.tokens.map Token.spaced) := by
  have hrow : s.settle.tokens = agreeSpaces (shiftSpaces s.tokens) := by
    rw [tokens_settle htags, keepTrailing_eq hnumbered h hwords]
    rfl
  rw [markup, spaceConsistent_settle htags, hrow, markupOf_agreeSpaces, core_shiftSpaces h,
    core_restored h, backSpace_eq, endSpace_shiftSpaces]
  exact List.append_nil _

end Sentence

end MarkupTransfer
