import MarkupTransfer.Proofs.Sentence.Apart
import MarkupTransfer.Proofs.Sentence.Origin
/-!
# Settling a second time

In a settled row all neighbours agree and nothing is recorded at the outer edges, so that the last
word has no blank to keep, no space has to be moved, and every boundary is what is made of its two
sides. Only flagged words make a difference: each of them gets its blank again, be there a space
behind it by then or not. The blank is handed to what stands behind the word, and it is taken up
there without a change

* by a word that has just a blank on its left; any other text there is lengthened by the blank, each
  time anew;
* by tags, if one of them or the word behind them has a space on its left. If none of them has, the
  blank moves past them to the word, though the first time it was lost on the way.

* `Absorbs`, `AbsorbsBlanks`: which rows take up the blanks they are handed.
* `GivesBack`, `givesBack_of_isChain`: when the walk gives back what a settled row records.
* `settle_settle_iff`: when settling a second time changes nothing.
-/

namespace MarkupTransfer

open Space (mergeSpace TokenClass)

namespace Space

variable {s : Option Space}

/-- A blank changes everything but a blank. -/
theorem merge_blank_eq_self_iff : merge (some blank) s = s ↔ s = some blank := by
  rcases s with _ | text | _
  · simp [blank, merge]
  · simp only [blank, merge, Option.some.injEq, literal.injEq]
    split
    · next heq => simp [heq]
    · next hne => simpa using Ne.symm hne
  · simp [blank, merge]

/-- A blank stays what it is beside anything but a text of its own. -/
theorem merge_blank_eq_blank_iff : merge (some blank) s = some blank ↔
    ∀ text, s = some (literal text) → text = [] ∨ text = [' '] := by
  rcases s with _ | text | _
  · simp [blank, merge]
  · simp only [blank, merge, Option.some.injEq, literal.injEq, forall_eq']
    split
    · next heq => simp [heq]
    · next hne => simp [Ne.symm hne]
  · simp [blank, merge]

end Space

namespace Token

theorem withSpaces_spaceless (x : Token) :
    (x.spaceless.withLeftSpace x.leftSpace).withRightSpace x.rightSpace = x := by
  cases x <;> rfl

theorem eq_of_spaceless_eq {x y : Token} (h : x.spaceless = y.spaceless)
    (hleft : x.leftSpace = y.leftSpace) (hright : x.rightSpace = y.rightSpace) : x = y := by
  rw [← withSpaces_spaceless x, ← withSpaces_spaceless y, h, hleft, hright]

end Token

namespace Sentence

open Token (Agrees restored spaceless)

/-! ## Settled rows -/

/-- In a row without spaces at its end whose neighbours agree, the spaces on the left tell all. -/
theorem eq_of_map_leftSpace_eq {ts us : List Token} (hts : ts.IsChain Agrees)
    (hus : us.IsChain Agrees) (hspaceless : ts.map spaceless = us.map spaceless)
    (hleft : ts.map Token.leftSpace = us.map Token.leftSpace) (hend : endSpace ts = endSpace us) :
    ts = us := by
  induction ts generalizing us with
  | nil => exact (List.map_eq_nil_iff.mp hspaceless.symm).symm
  | cons x ts ih =>
    cases us with
    | nil => cases hspaceless
    | cons y us =>
      obtain ⟨hxy, hrest⟩ := List.cons.inj hspaceless
      obtain ⟨hleftHead, hleftRest⟩ := List.cons.inj hleft
      cases ts with
      | nil =>
        obtain rfl := List.map_eq_nil_iff.mp hrest.symm
        rw [Token.eq_of_spaceless_eq hxy hleftHead hend]
      | cons x' ts =>
        cases us with
        | nil => cases hrest
        | cons y' us =>
          obtain ⟨hxx', hts⟩ := List.isChain_cons_cons.mp hts
          obtain ⟨hyy', hus⟩ := List.isChain_cons_cons.mp hus
          have hright : x.rightSpace = y.rightSpace := by
            rw [hxx'.same, hyy'.same]
            exact (List.cons.inj hleftRest).1
          rw [endSpace_cons (List.cons_ne_nil _ _), endSpace_cons (List.cons_ne_nil _ _)] at hend
          rw [Token.eq_of_spaceless_eq hxy hleftHead hright, ih hts hus hrest hleftRest hend]

/-- A word has no blank to keep in front of a tag that agrees with it. -/
theorem keepRow_of_isChain {ts : List Token} (h : ts.IsChain Agrees) : keepRow ts = ts := by
  induction ts with
  | nil => rfl
  | cons x ts ih =>
    cases x with
    | tag t => rw [keepRow, ih h.tail]
    | word w =>
      have hkept : keepBlank w ts = w := by
        rcases keepBlank_cases w ts with hsame | ⟨hnone, t, tags, rfl, hleft⟩
        · exact hsame
        · exact absurd ((List.isChain_cons_cons.mp h).1.same.symm.trans hnone) hleft
      rw [keepRow, hkept, ih h.tail]

/-- Whether a row that stands behind a token of kind `cls` takes up a blank it is handed there
without a change. A tag that records nothing hands it on. -/
def Absorbs (cls : TokenClass) : List Token → Prop
  | [] => True
  | .word v :: _ => cls = .word ∧ v.leftSpace = some .blank
  | .tag t :: rest => t.leftSpace = none → t.rightSpace = none → Absorbs .tag rest

/-- Whether what stands behind the flagged words of a row takes up their blanks. -/
def AbsorbsBlanks : List Token → Prop
  | [] => True
  | .word w :: rest => (w.tagRightSpaceRequired = true → Absorbs .word rest) ∧ AbsorbsBlanks rest
  | .tag _ :: rest => AbsorbsBlanks rest

/-- What a word makes of a blank handed to it by a token that agrees with it. -/
theorem mergeSpace_blank_word_iff {x : Token} {w : Word} (h : x.Agrees (.word w))
    (hkind : x.cls = .word ∨ x.rightSpace = none) :
    mergeSpace none (some .blank) w.leftSpace x.cls .word = w.leftSpace ↔
      x.cls = .word ∧ w.leftSpace = some .blank := by
  cases hcls : x.cls with
  | word => exact Space.merge_blank_eq_self_iff.trans (and_iff_right rfl).symm
  | tag =>
    have hright : x.rightSpace = none := hkind.resolve_left (by simp [hcls])
    have hleft : w.leftSpace = none := h.same.symm.trans hright
    rw [hleft]
    simp [mergeSpace, Space.blank]

/-- A tag with a space on its left takes up a blank: beside it this space has characters. -/
theorem mergeSpace_blank_tag {x : Token} {t : Tag} {left : Space} (h : x.Agrees (.tag t))
    (hkind : x.cls = .word ∨ x.rightSpace = none) (hleft : t.leftSpace = some left) :
    mergeSpace none (some .blank) (some left) x.cls .tag = some left := by
  have hright : x.rightSpace = some left := h.same.trans hleft
  cases hcls : x.cls with
  | tag => cases (hkind.resolve_left (by simp [hcls])).symm.trans hright
  | word =>
    cases left with
    | literal text => rfl
    | virtual => cases (h.virtual hright).2

theorem settledAfter_cons_restored (cls : TokenClass) (right : Option Space) (w : Word)
    (ts : List Token) :
    settledAfter cls right ((Token.word w).restored :: ts) =
      mergeSpace none right w.leftSpace cls .word ::
        settledAfter .word (restoreSpace w).rightSpace ts := by
  have hleft : (restoreSpace w).leftSpace = w.leftSpace := Token.leftSpace_restored (.word w)
  rw [← hleft]
  rfl

theorem settledAfter_cons_of_none (cls : TokenClass) (right : Option Space) {t : Tag}
    (hleft : t.leftSpace = none) (ts : List Token) :
    settledAfter cls right (.tag t :: ts) =
      none :: settledAfter .tag (t.rightSpace.or right) ts := by
  rw [settledAfter, hleft]

theorem settledAfter_cons_of_some (cls : TokenClass) (right : Option Space) {t : Tag} {left : Space}
    (hleft : t.leftSpace = some left) (ts : List Token) :
    settledAfter cls right (.tag t :: ts) =
      mergeSpace none right (some left) cls .tag :: settledAfter .tag t.rightSpace ts := by
  rw [settledAfter, hleft]

/-- When the walk gives back what a row records behind a token: where it is handed what the token
records on its right, and where it is handed a blank instead, by a word or in place of nothing. -/
structure GivesBack (x : Token) (ts : List Token) : Prop where
  kept : settledAfter x.cls x.rightSpace (ts.map restored) = ts.map Token.leftSpace ↔
    AbsorbsBlanks ts
  blank : x.cls = .word ∨ x.rightSpace = none →
    (settledAfter x.cls (some .blank) (ts.map restored) = ts.map Token.leftSpace ↔
      Absorbs x.cls ts ∧ AbsorbsBlanks ts)

/-- What a word hands to the row behind it is what it records, or a blank if it is flagged. -/
theorem GivesBack.restoreSpace {w : Word} {ts : List Token} (h : GivesBack (.word w) ts) :
    settledAfter .word (restoreSpace w).rightSpace (ts.map restored) = ts.map Token.leftSpace ↔
      AbsorbsBlanks (.word w :: ts) := by
  have hright : (Sentence.restoreSpace w).rightSpace =
      if w.tagRightSpaceRequired then some .blank else w.rightSpace :=
    Token.rightSpace_restored (.word w)
  rw [hright, AbsorbsBlanks]
  split
  · next hflag =>
    rw [forall_prop_of_true hflag]
    exact h.blank (.inl rfl)
  · next hflag =>
    rw [forall_prop_of_false hflag, true_and]
    exact h.kept

theorem GivesBack.cons_word {x : Token} {w : Word} {ts : List Token} (hxw : x.Agrees (.word w))
    (h : GivesBack (.word w) ts) : GivesBack x (.word w :: ts) := by
  have hrow : ∀ right, settledAfter x.cls right ((Token.word w :: ts).map restored) =
      (Token.word w :: ts).map Token.leftSpace ↔
      mergeSpace none right w.leftSpace x.cls .word = w.leftSpace ∧
        AbsorbsBlanks (.word w :: ts) := by
    intro right
    rw [← h.restoreSpace, List.map_cons, List.map_cons, settledAfter_cons_restored]
    exact Eq.to_iff (List.cons.injEq ..)
  exact ⟨(hrow _).trans (and_iff_right hxw.mergeSpace_eq),
    fun hkind => (hrow _).trans (and_congr_left' (mergeSpace_blank_word_iff hxw hkind))⟩

theorem GivesBack.cons_tag {x : Token} {t : Tag} {ts : List Token} (hxt : x.Agrees (.tag t))
    (h : GivesBack (.tag t) ts) : GivesBack x (.tag t :: ts) := by
  have hsame : x.rightSpace = t.leftSpace := hxt.same
  have hspace : (Token.tag t).leftSpace = t.leftSpace := rfl
  constructor <;> simp only [List.map_cons, Token.restored_tag, Absorbs, AbsorbsBlanks, hspace]
  · cases hleft : t.leftSpace with
    | none =>
      rw [settledAfter_cons_of_none _ _ hleft, hsame, hleft, Option.or_none, List.cons.injEq,
        and_iff_right rfl]
      exact h.kept
    | some left =>
      rw [settledAfter_cons_of_some _ _ hleft, List.cons.injEq,
        and_iff_right (hleft ▸ hxt.mergeSpace_eq)]
      exact h.kept
  · intro hkind
    cases hleft : t.leftSpace with
    | none =>
      -- the tag hands the blank on, if it records nothing on its right either
      rw [settledAfter_cons_of_none _ _ hleft, List.cons.injEq, and_iff_right rfl,
        forall_prop_of_true rfl]
      cases hright : t.rightSpace with
      | none =>
        rw [Option.none_or, forall_prop_of_true rfl]
        exact h.blank (.inr hright)
      | some right =>
        rw [Option.some_or, ← hright]
        refine h.kept.trans (and_iff_right fun hnone => ?_).symm
        cases hright.symm.trans hnone
    | some left =>
      rw [settledAfter_cons_of_some _ _ hleft, List.cons.injEq,
        and_iff_right (mergeSpace_blank_tag hxt hkind hleft)]
      refine h.kept.trans (and_iff_right fun hnone => ?_).symm
      cases hnone

/-- **When the walk gives back what a settled row records.** -/
theorem givesBack_of_isChain {x : Token} {ts : List Token} (h : (x :: ts).IsChain Agrees) :
    GivesBack x ts := by
  induction ts generalizing x with
  | nil =>
    exact ⟨by simp [settledAfter, AbsorbsBlanks],
      by simp [settledAfter, Absorbs, AbsorbsBlanks]⟩
  | cons y ts ih =>
    obtain ⟨hxy, hrest⟩ := List.isChain_cons_cons.mp h
    cases y with
    | word w => exact .cons_word hxy (ih hrest)
    | tag t => exact .cons_tag hxy (ih hrest)

/-- What is written to a row with nothing at its outer edge. -/
theorem settledRow_restored_iff {ts : List Token} (h : ts.IsChain Agrees)
    (hfront : ts.head?.bind Token.leftSpace = none) :
    settledRow (ts.map restored) = ts.map Token.leftSpace ↔ AbsorbsBlanks ts := by
  cases ts with
  | nil => simp [settledRow, AbsorbsBlanks]
  | cons x ts =>
    have hleft : x.leftSpace = none := hfront
    have hback := givesBack_of_isChain h
    rw [List.map_cons, List.map_cons, settledRow, hleft, List.cons.injEq, and_iff_right rfl]
    cases x with
    | word w => exact hback.restoreSpace
    | tag t => exact hback.kept

/-! ## From one flagged word to the next word -/

theorem absorbsBlanks_iff {ts : List Token} :
    AbsorbsBlanks ts ↔ ∀ front w behind, ts = front ++ .word w :: behind →
      w.tagRightSpaceRequired = true → Absorbs .word behind := by
  induction ts with
  | nil => simp [AbsorbsBlanks]
  | cons x ts ih =>
    constructor
    · intro h front w behind hrow hflag
      rcases List.cons_eq_append_iff.mp hrow with ⟨rfl, hhead⟩ | ⟨front, rfl, hrest⟩
      · obtain ⟨rfl, rfl⟩ := List.cons.inj hhead
        exact h.1 hflag
      · have hrest' : AbsorbsBlanks ts := by
          cases x with
          | word v => exact h.2
          | tag t => exact h
        exact ih.mp hrest' front w behind hrest hflag
    · intro h
      have hrest : AbsorbsBlanks ts :=
        ih.mpr fun front w behind hrow => h (x :: front) w behind (congrArg _ hrow)
      cases x with
      | word w => exact ⟨h [] w ts rfl, hrest⟩
      | tag t => exact hrest

theorem absorbs_map_tag (cls : TokenClass) (tags : List Tag) :
    Absorbs cls (tags.map .tag) := by
  induction tags generalizing cls with
  | nil => trivial
  | cons t tags ih => exact fun _ _ => ih .tag

/-- **A row of tags takes up a blank** if one of them or the word behind them has a space on its
left. -/
theorem absorbs_cons_iff {cls : TokenClass} {t : Tag} {tags : List Tag} {v : Word}
    {back : List Token} (h : ((t :: tags).map Token.tag ++ .word v :: back).IsChain Agrees) :
    Absorbs cls ((t :: tags).map .tag ++ .word v :: back) ↔
      ∃ x ∈ (t :: tags).map Token.tag ++ [.word v], x.leftSpace ≠ none := by
  induction tags generalizing cls t with
  | nil =>
    have hsame : t.rightSpace = v.leftSpace := (List.isChain_cons_cons.mp h).1.same
    simp [Absorbs, hsame, Token.leftSpace, imp_iff_not_or]
  | cons u tags ih =>
    obtain ⟨htu, hrest⟩ := List.isChain_cons_cons.mp h
    have hsame : t.rightSpace = u.leftSpace := htu.same
    rw [List.map_cons, List.cons_append, Absorbs, ih hrest, List.cons_append,
      List.exists_mem_cons_iff]
    constructor
    · intro habsorbs
      by_cases hleft : t.leftSpace = none
      · by_cases hright : t.rightSpace = none
        · exact .inr (habsorbs hleft hright)
        · exact .inr ⟨.tag u, by simp, fun hnone => hright (hsame.trans hnone)⟩
      · exact .inl hleft
    · rintro (hleft | hbehind) hnone -
      · exact absurd hnone hleft
      · exact hbehind

/-! ## The sentence -/

theorem eq_of_tokens_eq {s r : Sentence} (htokens : s.tokens = r.tokens)
    (hconsistent : s.spaceConsistent = r.spaceConsistent)
    (hannotations : s.annotations = r.annotations) : s = r := by
  have hwords : s.words = r.words := by
    rw [← filterMap_word?_tokens, htokens, filterMap_word?_tokens]
  have htags : s.tags = r.tags := by
    rw [← filterMap_tag?_tokens, htokens, filterMap_tag?_tokens]
  cases s
  cases r
  simp_all

theorem tags_settle_ne_nil {s : Sentence} (htags : s.tags ≠ []) : s.settle.tags ≠ [] := by
  intro h
  have hmap := s.spaceless_settle.2
  rw [h] at hmap
  exact htags (List.map_eq_nil_iff.mp hmap.symm)

theorem settle_settle_iff_absorbsBlanks {s : Sentence} (htags : s.tags ≠ []) :
    s.settle.settle = s.settle ↔ AbsorbsBlanks s.settle.tokens := by
  have htags' := tags_settle_ne_nil htags
  have hchain := isChain_tokens_settle htags
  obtain ⟨hfront, hback⟩ := edges_tokens_settle htags
  have hleft := map_leftSpace_settle htags'
  rw [keepRow_of_isChain hchain] at hleft
  rw [← settledRow_restored_iff hchain hfront, ← hleft]
  constructor
  · intro h
    rw [h]
  · intro h
    refine eq_of_tokens_eq ?_ ?_ s.settle.annotations_settle
    · exact eq_of_map_leftSpace_eq (isChain_tokens_settle htags') hchain
        s.settle.spaceless_tokens_settle h ((edges_tokens_settle htags').2.trans hback.symm)
    · rw [spaceConsistent_settle htags', spaceConsistent_settle htags]

/-- A row begins with tags, and then there is a word or nothing. -/
theorem exists_map_tag_append (ts : List Token) :
    ∃ tags : List Tag, ts = tags.map .tag ∨
      ∃ (v : Word) (back : List Token), ts = tags.map .tag ++ .word v :: back := by
  induction ts with
  | nil => exact ⟨[], .inl rfl⟩
  | cons x ts ih =>
    cases x with
    | word v => exact ⟨[], .inr ⟨v, ts, rfl⟩⟩
    | tag t =>
      obtain ⟨tags, rfl | ⟨v, back, rfl⟩⟩ := ih
      · exact ⟨t :: tags, .inl rfl⟩
      · exact ⟨t :: tags, .inr ⟨v, back, rfl⟩⟩

/-- Rows that differ in spaces alone have their words and tags in the same places. -/
theorem exists_stretch_of_spaceless_eq {ts us : List Token}
    (h : us.map spaceless = ts.map spaceless) {front back : List Token} {w v : Word}
    {tags : List Tag} (hrow : ts = front ++ .word w :: (tags.map .tag ++ .word v :: back)) :
    ∃ front' w' tags' v' back',
      us = front' ++ .word w' :: (List.map .tag tags' ++ .word v' :: back') ∧
      front'.length = front.length ∧ w'.tagRightSpaceRequired = w.tagRightSpaceRequired ∧
      tags'.length = tags.length := by
  rw [hrow, List.map_append, List.map_cons, List.map_append, List.map_cons] at h
  obtain ⟨front', rest, rfl, hfront, hrest⟩ := List.map_eq_append_iff.mp h
  obtain ⟨x, rest, rfl, hx, hrest⟩ := List.map_eq_cons_iff.mp hrest
  obtain ⟨stretch, rest, rfl, hstretch, hrest⟩ := List.map_eq_append_iff.mp hrest
  obtain ⟨y, back', rfl, hy, -⟩ := List.map_eq_cons_iff.mp hrest
  have hall : stretch.all Token.isTag := by
    have hkinds : ∀ ts : List Token, (ts.map spaceless).all Token.isTag = ts.all Token.isTag := by
      intro ts
      simp [spaceless, Function.comp_def]
    rw [← hkinds, hstretch, hkinds]
    simp
  obtain ⟨tags', rfl⟩ := exists_map_tag_eq hall
  cases x with
  | tag t => cases hx
  | word w' =>
    cases y with
    | tag t => cases hy
    | word v' =>
      refine ⟨front', w', tags', v', back', rfl, ?_, ?_, ?_⟩
      · simpa using congrArg List.length hfront
      · have hflag : ∀ x : Token, x.spaceless.isFlagged = x.isFlagged := by
          intro x
          cases x <;> rfl
        exact (hflag _).symm.trans ((congrArg Token.isFlagged hx).trans (hflag _))
      · simpa using congrArg List.length hstretch

/-- Whether the blank of a flagged word is taken up behind it, once a sentence has been settled, up
to the next word `v`. Without tags in between it is, if `v` recorded no text of its own; with tags,
if settling left a space between the two words. `first` is the place of the flagged word. -/
def TakesUpBlank (s : Sentence) (first : Nat) (tags : List Tag) (v : Word) : Prop :=
  (tags = [] → ∀ text, v.leftSpace = some (.literal text) → text = [] ∨ text = [' ']) ∧
    (tags ≠ [] → ∃ x ∈ s.settledBehind first (tags.length + 1), x.leftSpace ≠ none)

theorem absorbs_iff_takesUpBlank {s : Sentence} (htags : s.tags ≠ [])
    {front front' back back' : List Token} {w w' v v' : Word} {tags tags' : List Tag}
    (hrow : s.tokens = front ++ .word w :: (tags.map .tag ++ .word v :: back))
    (hrow' : s.settle.tokens = front' ++ .word w' :: (tags'.map .tag ++ .word v' :: back'))
    (hfront : front'.length = front.length) (hlength : tags'.length = tags.length)
    (hflag : w.tagRightSpaceRequired = true) :
    Absorbs .word (tags'.map .tag ++ .word v' :: back') ↔
      s.TakesUpBlank front.length tags v := by
  have hbehind : s.settledBehind front.length (tags.length + 1) =
      tags'.map .tag ++ [.word v'] := by
    have hcut : front' ++ .word w' :: (tags'.map .tag ++ .word v' :: back') =
        (front' ++ [.word w']) ++ ((tags'.map .tag ++ [.word v']) ++ back') := by simp
    rw [settledBehind, hrow', hcut, List.drop_left' (by simp [hfront]),
      List.take_left' (by simp [hlength])]
  cases tags with
  | nil =>
    obtain rfl := List.length_eq_zero_iff.mp hlength
    have hleft : v'.leftSpace = Space.merge (some .blank) v.leftSpace := by
      have hstretch := map_leftSpace_between htags hrow
      have hright : (restoreSpace w).rightSpace = some .blank := by
        rw [restoreSpace, if_pos hflag]
      rw [← settledBehind, hbehind, hright] at hstretch
      exact (List.cons.inj hstretch).1
    have habsorbs : Absorbs .word (.word v' :: back') ↔ v'.leftSpace = some .blank :=
      and_iff_right rfl
    rw [List.map_nil, List.nil_append, habsorbs, hleft,
      Space.merge_blank_eq_blank_iff]
    simp [TakesUpBlank]
  | cons t tags =>
    obtain ⟨t', tags', rfl⟩ := List.exists_cons_of_length_eq_add_one hlength
    have hchain : ((t' :: tags').map Token.tag ++ .word v' :: back').IsChain Agrees := by
      have hall := isChain_tokens_settle htags
      rw [hrow'] at hall
      exact (List.isChain_append.mp hall).2.1.tail
    rw [absorbs_cons_iff hchain, ← hbehind]
    simp [TakesUpBlank]

/-- **When settling a second time changes nothing**: if the sentence has no tags, or if of every
flagged word and the next word, with nothing but tags between them, the blank that the flagged word
gets again is taken up between the two. -/
theorem settle_settle_iff (s : Sentence) :
    s.settle.settle = s.settle ↔
      s.tags = [] ∨ ∀ (front : List Token) (w : Word) (tags : List Tag) (v : Word)
          (back : List Token),
        s.tokens = front ++ .word w :: (tags.map .tag ++ .word v :: back) →
        w.tagRightSpaceRequired = true → s.TakesUpBlank front.length tags v := by
  by_cases htags : s.tags = []
  · rw [settle_of_tags_eq_nil htags, settle_of_tags_eq_nil htags]
    exact iff_of_true rfl (.inl htags)
  · rw [settle_settle_iff_absorbsBlanks htags, absorbsBlanks_iff, or_iff_right htags]
    have hsame := s.spaceless_tokens_settle
    constructor
    · intro habsorbs front w tags v back hrow hflag
      obtain ⟨front', w', tags', v', back', hrow', hfront, hflag', hlength⟩ :=
        exists_stretch_of_spaceless_eq hsame hrow
      rw [← absorbs_iff_takesUpBlank htags hrow hrow' hfront hlength hflag]
      exact habsorbs _ _ _ hrow' (hflag'.trans hflag)
    · intro htakes front' w' behind hrow' hflag'
      obtain ⟨tags', rfl | ⟨v', back', rfl⟩⟩ := exists_map_tag_append behind
      · exact absorbs_map_tag .word tags'
      · obtain ⟨front, w, tags, v, back, hrow, hfront, hflag, hlength⟩ :=
          exists_stretch_of_spaceless_eq hsame.symm hrow'
        have hflagged := hflag.trans hflag'
        rw [absorbs_iff_takesUpBlank htags hrow hrow' hfront.symm hlength.symm hflagged]
        exact htakes front w tags v back hrow hflagged

/-- A flagged word with a line break in front of the word behind it, and a tag elsewhere. -/
def brokenLine : Sentence where
  words :=
    [{ Word.ofText none ['a'] none none with tagRightSpaceRequired := true },
      .ofText none ['b'] (some (.literal ['\n'])) none]
  tags := [⟨.xml, ['b'], ['<', 'b', '>'], none, none, 0, .opening, false⟩]
  spaceConsistent := false
  annotations := .empty

/-- A flagged word, and a tag behind it that touches the next word. -/
def touchedNext : Sentence where
  words :=
    [{ Word.ofText none ['a'] none none with tagRightSpaceRequired := true },
      .ofText none ['b'] none none]
  tags := [⟨.xml, ['b'], ['<', 'b', '>'], none, some .virtual, 1, .opening, false⟩]
  spaceConsistent := false
  annotations := .empty

/-- The space in front of a word grows by a blank the second time, and a blank that was lost the
first time appears. -/
theorem settle_settle_changes :
    brokenLine.settle.settle ≠ brokenLine.settle ∧
    brokenLine.settle.markup false = "<b>a \nb".toList ∧
    brokenLine.settle.settle.markup false = "<b>a  \nb".toList ∧
    brokenLine.settle.stripped false = "a \nb".toList ∧
    brokenLine.settle.settle.stripped false = "a  \nb".toList ∧
    touchedNext.settle.settle ≠ touchedNext.settle ∧
    touchedNext.settle.markup false = "a<b>b".toList ∧
    touchedNext.settle.settle.markup false = "a<b> b".toList := by
  refine ⟨by decide, by decide, by decide, by decide, by decide, by decide, by decide, by decide⟩

end Sentence

end MarkupTransfer
