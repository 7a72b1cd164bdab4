import MarkupTransfer.Proofs.Sentence.Boundaries
/-!
# Where settled white space comes from

A boundary of a settled sentence has characters because its right side recorded some, or because
they stood on the right of some token in front of it with nothing between but tags that record
nothing on their left, past which they have moved. Characters thus stay in their stretch, the row of
boundaries from one word to the next. The one exception is the blank that the last word keeps in
front of a tag: a tag that only touches the word is enough for it.

* `HasSource`, `hasSource_of_isLiteral`: where the characters at a boundary come from.
* `RecordsLiteral`, `InOneStretch`: what the sides of a boundary record, and which boundaries belong
  together.
* `recordsLiteral_settle_iff`: when a settled boundary has characters that were not recorded.
-/

namespace MarkupTransfer

open Space (mergeSpace TokenClass IsLiteral)

namespace Sentence

open Token (restored)

/-! ## Sources -/

/-- Boundary `i` of a row, the one behind token `i`, has a source of characters: on its right side,
or on the right of a token in front of it that has no tokens but tags between it and the boundary,
none of which records anything on its left. -/
def HasSource (ts : List Token) (i : Nat) : Prop :=
  (∃ y, ts[i + 1]? = some y ∧ IsLiteral y.leftSpace) ∨
    ∃ j ≤ i, (∃ x, ts[j]? = some x ∧ IsLiteral x.rightSpace) ∧
      ∀ k, j < k → k ≤ i → ∃ t : Tag, ts[k]? = some (.tag t) ∧ t.leftSpace = none

theorem HasSource.cons {ts : List Token} {i : Nat} (h : HasSource ts i) (x : Token) :
    HasSource (x :: ts) (i + 1) := by
  rcases h with hright | ⟨j, hj, hleft, htags⟩
  · exact .inl hright
  · refine .inr ⟨j + 1, by omega, hleft, fun k hjk hki => ?_⟩
    obtain ⟨k, rfl⟩ := Nat.exists_eq_add_one.mpr (Nat.zero_lt_of_lt hjk)
    exact htags k (by omega) (by omega)

/-- What a tag was handed was on the right of the token in front of it. -/
theorem HasSource.of_handed {x : Token} {t : Tag} {ts : List Token} {i : Nat}
    (hnone : t.leftSpace = none)
    (h : HasSource (.tag { t with rightSpace := t.rightSpace.or x.rightSpace } :: ts) i) :
    HasSource (x :: .tag t :: ts) (i + 1) := by
  rcases h with hright | ⟨j, hj, ⟨y, hy, hliteral⟩, htags⟩
  · exact .inl hright
  · cases j with
    | succ j =>
      refine .inr ⟨j + 2, by omega, ⟨y, hy, hliteral⟩, fun k hjk hki => ?_⟩
      obtain ⟨k, rfl⟩ := Nat.exists_eq_add_of_le' (show 2 ≤ k by omega)
      exact htags (k + 1) (by omega) (by omega)
    | zero =>
      obtain rfl := Option.some.inj hy
      have hbehind : ∀ k, 1 < k → k ≤ i + 1 →
          ∃ u : Tag, (x :: .tag t :: ts)[k]? = some (.tag u) ∧ u.leftSpace = none := by
        intro k hk hki
        obtain ⟨k, rfl⟩ := Nat.exists_eq_add_of_le' (show 2 ≤ k by omega)
        exact htags (k + 1) (by omega) (by omega)
      cases hown : t.rightSpace with
      | some own =>
        refine .inr ⟨1, by omega, ⟨.tag t, rfl, ?_⟩, hbehind⟩
        simpa [Token.rightSpace, hown] using hliteral
      | none =>
        refine .inr ⟨0, by omega, ⟨x, rfl, ?_⟩, fun k hk hki => ?_⟩
        · simpa [Token.rightSpace, hown] using hliteral
        · obtain rfl | hk := Nat.eq_or_lt_of_le (show 1 ≤ k from hk)
          · exact ⟨t, rfl, hnone⟩
          · exact hbehind k hk hki

/-- **The characters at a settled boundary have a source.** -/
theorem hasSource_of_isLiteral {x : Token} {ts : List Token} {i : Nat} {space : Option Space}
    (h : (settledAfter x.cls x.rightSpace ts)[i]? = some space) (hliteral : IsLiteral space) :
    HasSource (x :: ts) i := by
  induction ts generalizing x i with
  | nil => cases h
  | cons y ts ih =>
    -- the first boundary, if it is one that `mergeSpace` decides
    have hfirst : ∀ d, space = mergeSpace none x.rightSpace y.leftSpace x.cls d →
        HasSource (x :: y :: ts) 0 := by
      rintro d rfl
      rcases Space.isLiteral_mergeSpace_iff.mp hliteral with hleft | hright
      · exact .inr ⟨0, Nat.le_refl 0, ⟨x, rfl, hleft⟩, fun k hk hki => by omega⟩
      · exact .inl ⟨y, rfl, hright⟩
    cases y with
    | word w =>
      rw [settledAfter] at h
      cases i with
      | zero => exact hfirst .word (Option.some.inj h).symm
      | succ i => exact (ih (x := .word w) h).cons x
    | tag t =>
      rw [settledAfter] at h
      cases hleft : t.leftSpace with
      | some left =>
        rw [hleft] at h
        cases i with
        | zero =>
          refine hfirst .tag ?_
          rw [Token.leftSpace, hleft]
          exact (Option.some.inj h).symm
        | succ i => exact (ih (x := .tag t) h).cons x
      | none =>
        rw [hleft] at h
        cases i with
        | zero =>
          obtain rfl := Option.some.inj h
          exact absurd hliteral Space.not_isLiteral_none
        | succ i => exact .of_handed hleft (ih h)

/-! ## The last word -/

/-- The word at place `i` is the last one, has nothing on its right and has a tag behind it that
records no more than that it touches the word. -/
def TouchesLastWord (ts : List Token) (i : Nat) : Prop :=
  ∃ (front : List Token) (w : Word) (t : Tag) (tags : List Tag),
    ts = front ++ .word w :: .tag t :: tags.map .tag ∧ front.length = i ∧
      w.rightSpace = none ∧ t.leftSpace = some .virtual

theorem exists_map_tag_eq {ts : List Token} (h : ts.all Token.isTag) :
    ∃ tags : List Tag, ts = tags.map .tag := by
  induction ts with
  | nil => exact ⟨[], rfl⟩
  | cons x ts ih =>
    obtain ⟨hx, hrest⟩ := Bool.and_eq_true_iff.mp h
    obtain ⟨tags, rfl⟩ := ih hrest
    cases x with
    | word w => cases hx
    | tag t => exact ⟨t :: tags, rfl⟩

/-- A word is left as it is unless it is the last one and has nothing on its right, where the tag
behind it has a space on its left. -/
theorem keepBlank_cases (w : Word) (behind : List Token) :
    keepBlank w behind = w ∨
      w.rightSpace = none ∧ ∃ (t : Tag) (tags : List Tag),
        behind = .tag t :: tags.map .tag ∧ t.leftSpace ≠ none := by
  rw [keepBlank]
  split
  case isFalse => exact .inl rfl
  case isTrue h =>
    obtain ⟨h, hright⟩ := Bool.and_eq_true_iff.mp h
    obtain ⟨hall, hfirst⟩ := Bool.and_eq_true_iff.mp h
    obtain ⟨tags, rfl⟩ := exists_map_tag_eq hall
    cases tags with
    | nil => cases hfirst
    | cons t tags =>
      exact .inr ⟨Option.isNone_iff_eq_none.mp hright, t, tags, rfl,
        Option.isSome_iff_ne_none.mp hfirst⟩

theorem getElem?_keepRow (ts : List Token) (k : Nat) :
    (keepRow ts)[k]? = ts[k]?.map (Token.map (keepBlank · (ts.drop (k + 1))) id) := by
  induction ts generalizing k with
  | nil => rfl
  | cons x ts ih =>
    cases k with
    | zero => cases x <;> rfl
    | succ k => cases x <;> exact ih k

theorem getElem?_keepRow_eq_tag_iff {ts : List Token} {k : Nat} {t : Tag} :
    (keepRow ts)[k]? = some (.tag t) ↔ ts[k]? = some (.tag t) := by
  rw [getElem?_keepRow]
  rcases ts[k]? with _ | _ | u
  · exact Iff.rfl
  · exact iff_of_false nofun nofun
  · exact Iff.rfl

theorem exists_leftSpace_of_keepRow {ts : List Token} {k : Nat} {x : Token}
    (h : (keepRow ts)[k]? = some x) : ∃ y, ts[k]? = some y ∧ y.leftSpace = x.leftSpace := by
  rw [getElem?_keepRow] at h
  obtain ⟨y, hy, rfl⟩ := Option.map_eq_some_iff.mp h
  refine ⟨y, hy, ?_⟩
  cases y with
  | word w => exact (leftSpace_keepBlank w _).symm
  | tag t => rfl

/-- What stands on the right of a token stood there before, or it is the blank that the last word
keeps. -/
theorem exists_rightSpace_of_keepRow {ts : List Token} {k : Nat} {x : Token}
    (h : (keepRow ts)[k]? = some x) :
    (∃ y, ts[k]? = some y ∧ y.rightSpace = x.rightSpace) ∨
      ∃ (front : List Token) (w : Word) (t : Tag) (tags : List Tag),
        ts = front ++ .word w :: .tag t :: tags.map .tag ∧ front.length = k ∧
          w.rightSpace = none ∧ t.leftSpace ≠ none := by
  rw [getElem?_keepRow] at h
  obtain ⟨y, hy, rfl⟩ := Option.map_eq_some_iff.mp h
  cases y with
  | tag t => exact .inl ⟨_, hy, rfl⟩
  | word w =>
    rcases keepBlank_cases w (ts.drop (k + 1)) with hsame | ⟨hright, t, tags, hdrop, hleft⟩
    · refine .inl ⟨_, hy, ?_⟩
      rw [Token.map, hsame]
    · obtain ⟨hk, hword⟩ := List.getElem?_eq_some_iff.mp hy
      refine .inr ⟨ts.take k, w, t, tags, ?_, List.length_take_of_le hk.le, hright, hleft⟩
      rw [← hdrop, ← hword, ← List.drop_eq_getElem_cons hk, List.take_append_drop]

/-- Keeping a blank is no concern of a flag. -/
theorem tagRightSpaceRequired_keepBlank (w : Word) (behind : List Token) :
    (keepBlank w behind).tagRightSpaceRequired = w.tagRightSpaceRequired := by
  unfold keepBlank
  split <;> rfl

/-- Where no word is flagged none gets a blank back. -/
theorem map_restored_keepRow {ts : List Token}
    (hflags : ∀ w, .word w ∈ ts → w.tagRightSpaceRequired = false) :
    (keepRow ts).map restored = keepRow ts := by
  induction ts with
  | nil => rfl
  | cons x ts ih =>
    have hrest := ih fun w hw => hflags w (List.mem_cons_of_mem x hw)
    cases x with
    | tag t => rw [keepRow, List.map_cons, hrest, Token.restored_tag]
    | word w =>
      have hflag := (tagRightSpaceRequired_keepBlank w ts).trans (hflags w List.mem_cons_self)
      rw [keepRow, List.map_cons, hrest, restored, Token.map, restoreSpace, hflag]
      rfl

/-! ## What the sides of a boundary record -/

/-- One of the two sides of boundary `i`, the one behind token `i`, records characters. -/
def RecordsLiteral (ts : List Token) (i : Nat) : Prop :=
  ∃ x y, ts[i]? = some x ∧ ts[i + 1]? = some y ∧ (IsLiteral x.rightSpace ∨ IsLiteral y.leftSpace)

/-- From boundary `j` on to boundary `i` there are no tokens but tags. -/
def InOneStretch (ts : List Token) (j i : Nat) : Prop :=
  ∀ k, j < k → k ≤ i → ∃ t : Tag, ts[k]? = some (.tag t)

/-- Neighbours of a settled row agree, so that what a boundary of it records stands on the right
side of it. -/
theorem recordsLiteral_settle_iff_row {s : Sentence} (htags : s.tags ≠ []) (i : Nat) :
    RecordsLiteral s.settle.tokens i ↔
      ∃ space, (settledRow ((keepRow s.tokens).map restored))[i + 1]? = some space ∧
        IsLiteral space := by
  rw [← map_leftSpace_settle htags, List.getElem?_map]
  constructor
  · rintro ⟨x, y, hx, hy, hliteral⟩
    obtain ⟨hi, rfl⟩ := List.getElem?_eq_some_iff.mp hy
    obtain ⟨_, rfl⟩ := List.getElem?_eq_some_iff.mp hx
    have hagree := List.isChain_iff_getElem.mp (isChain_tokens_settle htags) i hi
    rw [hagree.same, or_self] at hliteral
    exact ⟨_, by rw [hy]; rfl, hliteral⟩
  · rintro ⟨space, hspace, hliteral⟩
    obtain ⟨y, hy, rfl⟩ := Option.map_eq_some_iff.mp hspace
    obtain ⟨hi, -⟩ := List.getElem?_eq_some_iff.mp hy
    exact ⟨_, y, List.getElem?_eq_getElem (Nat.lt_of_succ_lt hi), hy, .inr hliteral⟩

/-- A source of characters in a row whose last word keeps a blank: characters that the row recorded,
or a tag that touches this word. -/
theorem HasSource.of_keepRow {ts : List Token} {i : Nat} (hi : i + 1 < ts.length)
    (h : HasSource (keepRow ts) i) :
    (∃ j ≤ i, InOneStretch ts j i ∧ RecordsLiteral ts j) ∨ TouchesLastWord ts i := by
  have hget : ∀ k, k ≤ i + 1 → ∃ x, ts[k]? = some x := fun k hk =>
    ⟨_, List.getElem?_eq_getElem (Nat.lt_of_le_of_lt hk hi)⟩
  have hself : InOneStretch ts i i := fun k hik hki => by omega
  rcases h with ⟨y, hy, hliteral⟩ | ⟨j, hj, ⟨x, hx, hliteral⟩, hbehind⟩
  · obtain ⟨z, hz, hsame⟩ := exists_leftSpace_of_keepRow hy
    obtain ⟨x, hx⟩ := hget i (by omega)
    exact .inl ⟨i, Nat.le_refl i, hself, x, z, hx, hz, .inr (hsame ▸ hliteral)⟩
  · rcases exists_rightSpace_of_keepRow hx with
      ⟨z, hz, hsame⟩ | ⟨front, w, t, tags, rfl, rfl, hright, hleft⟩
    · obtain ⟨y, hy⟩ := hget (j + 1) (by omega)
      refine .inl ⟨j, hj, fun k hjk hki => ?_, z, y, hz, hy, .inl (hsame ▸ hliteral)⟩
      exact (hbehind k hjk hki).imp fun _ ht => getElem?_keepRow_eq_tag_iff.mp ht.1
    · have hw : (front ++ .word w :: .tag t :: tags.map .tag)[front.length]? = some (.word w) := by
        simp
      have ht : (front ++ .word w :: .tag t :: tags.map .tag)[front.length + 1]? =
          some (.tag t) := by
        simp
      -- the tag behind the word has a space on its left, so that nothing moves past it
      obtain rfl : front.length = i := by
        refine Nat.le_antisymm hj (Nat.le_of_not_lt fun hlt => ?_)
        obtain ⟨u, hu, hnone⟩ := hbehind (front.length + 1) (by omega) (by omega)
        rw [getElem?_keepRow_eq_tag_iff, ht] at hu
        cases hu
        exact hleft hnone
      cases hspace : t.leftSpace with
      | none => exact absurd hspace hleft
      | some left =>
        cases left with
        | virtual => exact .inr ⟨front, w, t, tags, rfl, rfl, hright, hspace⟩
        | literal text => exact .inl ⟨_, hj, hself, _, _, hw, ht, .inr ⟨text, hspace⟩⟩

/-- Nothing is recorded in the stretch of a last word that a tag just touches up to this tag. -/
theorem TouchesLastWord.not_recorded {ts : List Token} {i : Nat} (h : TouchesLastWord ts i) :
    ¬ ∃ j ≤ i, InOneStretch ts j i ∧ RecordsLiteral ts j := by
  obtain ⟨front, w, t, tags, rfl, rfl, hright, hleft⟩ := h
  rintro ⟨j, hj, hstretch, x, y, hx, hy, hliteral⟩
  obtain rfl | hlt := Nat.eq_or_lt_of_le hj
  · rw [List.getElem?_append_right (Nat.le_refl _), Nat.sub_self] at hx
    rw [List.getElem?_append_right (Nat.le_add_right _ 1), Nat.add_sub_cancel_left] at hy
    obtain rfl := Option.some.inj hx
    obtain rfl := Option.some.inj hy
    rcases hliteral with hliteral | hliteral
    · exact Space.not_isLiteral_none (hright ▸ hliteral)
    · exact Space.not_isLiteral_virtual (hleft ▸ hliteral)
  · obtain ⟨u, hu⟩ := hstretch front.length hlt (Nat.le_refl _)
    rw [List.getElem?_append_right (Nat.le_refl _), Nat.sub_self] at hu
    cases hu

/-- A last word that a tag just touches keeps a blank in front of this tag. -/
theorem TouchesLastWord.getElem?_settledRow {ts : List Token} {i : Nat}
    (h : TouchesLastWord ts i) : (settledRow (keepRow ts))[i + 1]? = some (some .blank) := by
  obtain ⟨front, w, t, tags, rfl, rfl, hright, hleft⟩ := h
  have hkept : keepBlank w (.tag t :: tags.map .tag) = { w with rightSpace := some .blank } := by
    have hall : (Token.tag t :: tags.map .tag).all Token.isTag = true := by simp
    rw [keepBlank, hall, hright]
    simp [Token.leftSpace, hleft]
  rw [keepRow_append_word, hkept, settledRow_append_word, List.getElem?_append_right (by simp)]
  simp only [length_settledRow, List.length_append, List.length_singleton, Nat.sub_self]
  rw [← List.map_cons, keepRow_map_tag, List.map_cons, settledAfter, hleft]
  rfl

/-! ## The sentence -/

/-- **When a settled boundary has characters that were not recorded.** Where no word is flagged they
were recorded at this boundary or at one in front of it in the same stretch, unless the boundary is
behind the last word, and all that was recorded there is that a tag touches the word. There the word
keeps a blank, though nothing had characters. -/
theorem recordsLiteral_settle_iff {s : Sentence} (htags : s.tags ≠ [])
    (hflags : ∀ w ∈ s.words, w.tagRightSpaceRequired = false) (i : Nat) :
    (RecordsLiteral s.settle.tokens i ∧
        ¬ ∃ j ≤ i, InOneStretch s.tokens j i ∧ RecordsLiteral s.tokens j) ↔
      TouchesLastWord s.tokens i := by
  have hrow : (keepRow s.tokens).map restored = keepRow s.tokens :=
    map_restored_keepRow fun w hw => hflags w (word_mem_tokens_iff.mp hw)
  rw [recordsLiteral_settle_iff_row htags, hrow]
  constructor
  · rintro ⟨⟨space, hspace, hliteral⟩, hnone⟩
    have hlength : (keepRow s.tokens).length = s.tokens.length := by
      rw [← hrow, ← length_settledRow, ← map_leftSpace_settle htags, List.length_map]
      simpa using congrArg List.length s.spaceless_tokens_settle
    have hi : i + 1 < s.tokens.length := by
      rw [← hlength, ← length_settledRow]
      exact (List.getElem?_eq_some_iff.mp hspace).1
    refine (HasSource.of_keepRow hi ?_).resolve_left hnone
    cases hkept : keepRow s.tokens with
    | nil => rw [hkept] at hspace; cases hspace
    | cons x rest =>
      rw [hkept] at hspace
      exact hasSource_of_isLiteral hspace hliteral
  · intro htouches
    exact ⟨⟨_, htouches.getElem?_settledRow, _, rfl⟩, htouches.not_recorded⟩

/-- Two words, with a blank recorded in front of the second, and a tag at the end that touches
it. -/
def touchedWord : Sentence where
  words := [.ofText none ['a'] none none, .ofText none ['b'] (some .blank) none]
  tags :=
    [⟨.xml, ['b'], ['<', 'b', '>'], none, none, 1, .opening, false⟩,
      ⟨.xml, ['b'], ['<', '/', 'b', '>'], some .virtual, none, 2, .closing, false⟩]
  spaceConsistent := false
  annotations := .empty

theorem recordsLiteral_settle_iff_touchedWord :
    touchedWord.tags ≠ [] ∧ (∀ w ∈ touchedWord.words, w.tagRightSpaceRequired = false) ∧
    (RecordsLiteral touchedWord.settle.tokens 1 ∧
      ∃ j ≤ 1, InOneStretch touchedWord.tokens j 1 ∧ RecordsLiteral touchedWord.tokens j) ∧
    (RecordsLiteral touchedWord.settle.tokens 2 ∧
      ¬ ∃ j ≤ 2, InOneStretch touchedWord.tokens j 2 ∧ RecordsLiteral touchedWord.tokens j) := by
  have htags : touchedWord.tags ≠ [] := by decide
  have hflags : ∀ w ∈ touchedWord.words, w.tagRightSpaceRequired = false := by decide
  refine ⟨htags, hflags, ?_, ?_⟩
  · exact ⟨⟨_, _, rfl, rfl, .inl ⟨[' '], by decide⟩⟩, 1, Nat.le_refl 1, fun k h1 h2 => by omega,
      _, _, rfl, rfl, .inr ⟨[' '], rfl⟩⟩
  · exact (recordsLiteral_settle_iff htags hflags 2).mpr
      ⟨touchedWord.tokens.take 2, _, _, [], rfl, rfl, rfl, rfl⟩

/-- A sentence of one word between two tags, where nothing has characters but tags and word. -/
def touchedOnly : Sentence where
  words := [.ofText none ['a'] none none]
  tags :=
    [⟨.xml, ['b'], ['<', 'b', '>'], none, none, 0, .opening, false⟩,
      ⟨.xml, ['b'], ['<', '/', 'b', '>'], some .virtual, none, 1, .closing, false⟩]
  spaceConsistent := false
  annotations := .empty

/-- A tag that touches the last word makes a blank that no token recorded. -/
theorem settle_invents_blank :
    (∀ w ∈ touchedOnly.words, w.tagRightSpaceRequired = false) ∧
    (∀ x ∈ touchedOnly.tokens, ¬ IsLiteral x.leftSpace ∧ ¬ IsLiteral x.rightSpace) ∧
    RecordsLiteral touchedOnly.settle.tokens 1 ∧
    touchedOnly.markup false = "<b>a</b>".toList ∧
    touchedOnly.settle.markup false = "<b>a </b>".toList := by
  refine ⟨by decide, by decide, ⟨_, _, rfl, rfl, .inl ⟨[' '], by decide⟩⟩, by decide, by decide⟩

end Sentence

end MarkupTransfer
