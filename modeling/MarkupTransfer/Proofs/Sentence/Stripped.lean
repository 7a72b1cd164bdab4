import MarkupTransfer.Sentence.Render
import MarkupTransfer.Proofs.Space
import MarkupTransfer.Proofs.Sentence.Order
/-!
# What stands between words without markup

Without markup a sentence is its words, each behind a text of its own. Between two words next to
each other this text is what is made of the two spaces that face each other. Where tags have been
left out it is gathered from the spaces on both sides of every tag: as soon as one of them has
characters some do at every later boundary up to the word, for beside a tag a space that has none
yields to one that has. If none has, a boundary without a space is met at the first tag already, and
it is remembered until the next word. So the words are kept apart unless all that was gathered is
empty.

* `leadsOf`, `strippedOf_eq`: the texts in front of the words, and a row shown with them.
* `Gathers`: what has been gathered from spaces beside tags.
* `stripped_separates`: what is shown without markup.
-/

namespace MarkupTransfer

open Space (mergeSpace merge onlyLiteral)

namespace Space

/-- The characters of those spaces that have any. -/
def literals (spaces : List (Option Space)) : List Text :=
  spaces.filterMap fun s => s.bind literal?

theorem literals_append (spaces spaces' : List (Option Space)) :
    literals (spaces ++ spaces') = literals spaces ++ literals spaces' :=
  List.filterMap_append

/-! ## Gathering -/

/-- A space that was gathered from spaces with the characters `texts`: there is none if there were
none, and otherwise it is some of them side by side. -/
def Gathers (texts : List Text) (s : Option Space) : Prop :=
  (texts = [] ∧ s = none) ∨
    ∃ parts, parts ≠ [] ∧ parts.Sublist texts ∧ s = some (literal parts.flatten)

theorem gathers_onlyLiteral (s : Option Space) : Gathers (literals [s]) (onlyLiteral s) := by
  rcases s with _ | text | _
  · exact .inl ⟨rfl, rfl⟩
  · exact .inr ⟨[text], by simp, .refl _, by simp⟩
  · exact .inl ⟨rfl, rfl⟩

variable {texts texts' : List Text} {s s' : Option Space}

theorem Gathers.eq_none_iff (h : Gathers texts s) : s = none ↔ texts = [] := by
  rcases h with ⟨rfl, rfl⟩ | ⟨parts, hne, hsub, rfl⟩
  · exact iff_of_true rfl rfl
  · refine iff_of_false nofun fun hnil => hne ?_
    rw [hnil] at hsub
    exact List.sublist_nil.mp hsub

theorem Gathers.merge (h : Gathers texts s) (h' : Gathers texts' s') :
    Gathers (texts ++ texts') (merge s s') := by
  rcases h with ⟨rfl, rfl⟩ | ⟨parts, hne, hsub, rfl⟩
  · exact h'
  · rcases h' with ⟨rfl, rfl⟩ | ⟨parts', hne', hsub', rfl⟩
    · rw [List.append_nil]
      exact .inr ⟨parts, hne, hsub, rfl⟩
    · rw [Space.merge]
      split
      · exact .inr ⟨parts, hne, hsub.trans (List.sublist_append_left _ _), rfl⟩
      · exact .inr ⟨parts ++ parts', by simp [hne], hsub.append hsub', by simp⟩

/-- Where the space on the right has precedence. -/
theorem Gathers.or (h : Gathers texts s) (h' : Gathers texts' s') :
    Gathers (texts ++ texts') (s'.or s) := by
  rcases h' with ⟨rfl, rfl⟩ | ⟨parts', hne', hsub', rfl⟩
  · rw [List.append_nil]
    exact h
  · exact .inr ⟨parts', hne', hsub'.trans (List.sublist_append_right _ _), rfl⟩

/-- A boundary without characters does not count beside characters that were gathered. -/
theorem Gathers.onlyLiteral_merge (h : Gathers texts s) (left : Option Space) :
    Gathers (texts ++ literals [left]) (onlyLiteral (Space.merge s left)) := by
  have hleft : onlyLiteral (Space.merge s left) = Space.merge s (onlyLiteral left) := by
    rcases h with ⟨rfl, rfl⟩ | ⟨parts, -, -, rfl⟩
    · rfl
    · rcases left with _ | _ | _ <;> rfl
  rw [hleft]
  exact h.merge (gathers_onlyLiteral left)

/-- **What is gathered beside a tag**, of what had been gathered and the two sides of a boundary. -/
theorem Gathers.mergeSpace (h : Gathers texts s) (left right : Option Space) {c d : TokenClass}
    (htag : c = .tag ∨ d = .tag) :
    Gathers (texts ++ literals [left, right]) (mergeSpace s left right c d) := by
  have hknown := h.onlyLiteral_merge left
  have hright := gathers_onlyLiteral right
  have htexts : texts ++ literals [left, right] =
      texts ++ literals [left] ++ literals [right] := by
    rw [List.append_assoc, ← literals_append]
    rfl
  rw [htexts]
  by_cases hcd : c = d
  · subst hcd
    obtain rfl : c = .tag := htag.elim id id
    exact hknown.merge hright
  · rw [mergeSpace_of_ne s hcd]
    exact hknown.or hright

end Space

namespace Sentence

open Space (Gathers literals)

/-! ## The texts in front of the words -/

namespace StripState

/-- The walk once a word has been shown. -/
def behind (w : Word) : StripState := ⟨.word w, none, false, true⟩

/-- What is made of the space gathered and of those on both sides of the next boundary. -/
def boundary (state : StripState) (token : Token) : Option Space :=
  mergeSpace state.carried state.previous.rightSpace token.leftSpace state.previous.cls token.cls

/-- The walk once a tag has been passed. -/
def pass (state : StripState) (t : Tag) : StripState where
  previous := .tag t
  carried := state.boundary (.tag t)
  separated := state.separated || (state.foundWord && (state.boundary (.tag t)).isNone)
  foundWord := state.foundWord

/-- What is shown in front of the next word. -/
def lead (state : StripState) (w : Word) : Text :=
  if state.foundWord then
    match state.boundary (.word w) with
    | some s => s.shown
    | none => if state.separated then [' '] else []
  else []

end StripState

/-- What is shown in front of the words of a row. -/
def leadsAfter (state : StripState) : List Token → List Text
  | [] => []
  | .word w :: rest => state.lead w :: leadsAfter (.behind w) rest
  | .tag t :: rest => leadsAfter (state.pass t) rest

/-- What is shown in front of the words of a whole row. -/
def leadsOf : List Token → List Text
  | [] => []
  | .word w :: rest => Space.literalOnly w.leftSpace :: leadsAfter (.behind w) rest
  | .tag t :: rest => leadsAfter ⟨.tag t, none, false, false⟩ rest

/-- The space on the left of the first token, if this is a word. -/
def outerLeft (ts : List Token) : Option Space := (ts.head?.bind Token.word?).bind Word.leftSpace

/-- The space on the right of the last token, if this is a word. -/
def outerRight (ts : List Token) : Option Space :=
  (ts.getLast?.bind Token.word?).bind Word.rightSpace

/-- Words, each behind a text. -/
def shownBehind (placeholders : Bool) (leads : List Text) (words : List Word) : Text :=
  (List.zipWith (fun lead w => lead ++ w.surface placeholders) leads words).flatten

section Shown

variable (placeholders : Bool) (state : StripState) (w : Word) (t : Tag) (ts : List Token)

theorem strippedAfter_cons_word : strippedAfter placeholders state (.word w :: ts) =
    state.lead w ++ w.surface placeholders ++ strippedAfter placeholders (.behind w) ts := rfl

theorem strippedAfter_cons_tag : strippedAfter placeholders state (.tag t :: ts) =
    strippedAfter placeholders (state.pass t) ts := rfl

theorem shownBehind_cons (lead : Text) (leads : List Text) (words : List Word) :
    shownBehind placeholders (lead :: leads) (w :: words) =
      lead ++ w.surface placeholders ++ shownBehind placeholders leads words := rfl

theorem outerRight_cons_cons (x y : Token) : outerRight (x :: y :: ts) = outerRight (y :: ts) := by
  rw [outerRight, List.getLast?_cons_cons, outerRight]

theorem strippedAfter_eq : strippedAfter placeholders state ts =
    shownBehind placeholders (leadsAfter state ts) (ts.filterMap Token.word?) ++
      Space.literalOnly (outerRight (state.previous :: ts)) := by
  induction ts generalizing state with
  | nil =>
    obtain ⟨previous, carried, separated, foundWord⟩ := state
    cases previous <;> rfl
  | cons x ts ih =>
    rw [outerRight_cons_cons]
    cases x with
    | word w =>
      rw [strippedAfter_cons_word, ih, leadsAfter, Token.filterMap_word?_word, shownBehind_cons,
        List.append_assoc _ (shownBehind _ _ _)]
      rfl
    | tag t =>
      rw [strippedAfter_cons_tag, ih]
      rfl

/-- **A row is shown as its words**, each behind a text of its own, and the outer space of the last
token if it is a word. -/
theorem strippedOf_eq : strippedOf placeholders ts =
    shownBehind placeholders (leadsOf ts) (ts.filterMap Token.word?) ++
      Space.literalOnly (outerRight ts) := by
  rcases ts with _ | ⟨w | t, ts⟩
  · rfl
  · rw [strippedOf, strippedAfter_eq, leadsOf, Token.filterMap_word?_word, shownBehind_cons,
      List.append_assoc _ (shownBehind _ _ _)]
    rfl
  · rw [strippedOf, strippedAfter_eq]
    rfl

end Shown

theorem length_leadsAfter (state : StripState) (ts : List Token) :
    (leadsAfter state ts).length = (ts.filterMap Token.word?).length := by
  induction ts generalizing state with
  | nil => rfl
  | cons x ts ih =>
    cases x with
    | word w => rw [leadsAfter, List.length_cons, ih]; rfl
    | tag t => rw [leadsAfter, ih]; rfl

theorem length_leadsOf (ts : List Token) :
    (leadsOf ts).length = (ts.filterMap Token.word?).length := by
  rcases ts with _ | ⟨w | t, ts⟩
  · rfl
  · rw [leadsOf, List.length_cons, length_leadsAfter]; rfl
  · rw [leadsOf, length_leadsAfter]; rfl

/-- Nothing is shown in front of the first word if there are tags in front of it. -/
theorem head?_leadsAfter_of_not_foundWord {state : StripState} (h : state.foundWord = false)
    (ts : List Token) : ∀ lead ∈ (leadsAfter state ts).head?, lead = [] := by
  induction ts generalizing state with
  | nil => nofun
  | cons x ts ih =>
    cases x with
    | word w =>
      intro lead hlead
      obtain rfl := Option.some.inj hlead
      rw [StripState.lead, h, if_neg Bool.false_ne_true]
    | tag t =>
      have hpass : (state.pass t).foundWord = false := h
      exact ih hpass

theorem head?_leadsOf (ts : List Token) :
    ∀ lead ∈ (leadsOf ts).head?, lead = Space.literalOnly (outerLeft ts) := by
  rcases ts with _ | ⟨w | t, ts⟩
  · nofun
  · intro lead hlead
    exact (Option.some.inj hlead).symm
  · exact head?_leadsAfter_of_not_foundWord rfl ts

/-- What is shown behind a word does not depend on what stands in front of it. -/
theorem leadsAfter_append_word (state : StripState) (front : List Token) (w : Word)
    (behind : List Token) :
    leadsAfter state (front ++ .word w :: behind) =
      leadsAfter state (front ++ [.word w]) ++ leadsAfter (.behind w) behind := by
  induction front generalizing state with
  | nil => rfl
  | cons x front ih =>
    cases x with
    | word v => rw [List.cons_append, leadsAfter, ih]; rfl
    | tag t => rw [List.cons_append, leadsAfter, ih]; rfl

theorem leadsOf_append_word (front : List Token) (w : Word) (behind : List Token) :
    leadsOf (front ++ .word w :: behind) =
      leadsOf (front ++ [.word w]) ++ leadsAfter (.behind w) behind := by
  rcases front with _ | ⟨v | t, front⟩
  · rfl
  · rw [List.cons_append, leadsOf, leadsAfter_append_word]; rfl
  · rw [List.cons_append, leadsOf, leadsAfter_append_word]; rfl

/-! ## Between two words -/

/-- Directly behind a word nothing has been gathered. -/
theorem lead_behind (w v : Word) : (StripState.behind w).lead v =
    Space.shown? (merge w.rightSpace v.leftSpace) := by
  have hfound : (StripState.behind w).foundWord = true := rfl
  have hboundary : (StripState.behind w).boundary (.word v) = merge w.rightSpace v.leftSpace := rfl
  rw [StripState.lead, if_pos hfound, hboundary]
  cases merge w.rightSpace v.leftSpace <;> rfl

/-- The spaces on both sides of tags. -/
def sides (tags : List Tag) : List (Option Space) :=
  tags.flatMap fun t => [t.leftSpace, t.rightSpace]

/-- The spaces that face each other from one word to the next, with tags between them. -/
def facing (w : Word) (tags : List Tag) (v : Word) : List (Option Space) :=
  w.rightSpace :: sides tags ++ [v.leftSpace]

/-- What may stand for tags that were left out between two words, where the spaces beside them have
the characters `texts`: a blank if there are none, and otherwise some of them side by side. -/
def StandsFor (texts : List Text) (lead : Text) : Prop :=
  (texts = [] → lead = [' ']) ∧
    (texts ≠ [] → ∃ parts, parts ≠ [] ∧ parts.Sublist texts ∧ lead = parts.flatten)

/-- What stands for tags that were left out is empty only if something empty was recorded. -/
theorem StandsFor.mem_of_eq_nil {texts : List Text} {lead : Text} (h : StandsFor texts lead)
    (hlead : lead = []) : [] ∈ texts := by
  by_cases htexts : texts = []
  · cases hlead.symm.trans (h.1 htexts)
  · obtain ⟨parts, hne, hsub, rfl⟩ := h.2 htexts
    obtain ⟨part, rest, rfl⟩ := List.exists_cons_of_ne_nil hne
    obtain rfl : part = [] := List.flatten_eq_nil_iff.mp hlead part List.mem_cons_self
    exact hsub.subset List.mem_cons_self

/-- A walk that has passed a tag since the last word. What it carries was gathered from spaces with
the characters `texts`. -/
structure StripState.HasPassed (state : StripState) (texts : List Text) : Prop where
  previous : state.previous.cls = .tag
  foundWord : state.foundWord = true
  gathers : Gathers texts state.carried
  separated : state.carried = none → state.separated = true

/-- A tag without a space in front of it is remembered. -/
theorem StripState.hasPassed_pass {state : StripState} {texts : List Text}
    (hfound : state.foundWord = true) (hgathers : Gathers texts state.carried) (t : Tag) :
    (state.pass t).HasPassed (texts ++ literals [state.previous.rightSpace, t.leftSpace]) where
  previous := rfl
  foundWord := hfound
  gathers := hgathers.mergeSpace _ _ (.inr rfl)
  separated hnone := by
    have hboundary : state.boundary (.tag t) = none := hnone
    simp [pass, hboundary, hfound]

theorem StripState.HasPassed.standsFor_lead {state : StripState} {texts : List Text}
    (h : state.HasPassed texts) (v : Word) :
    StandsFor (texts ++ literals [state.previous.rightSpace, v.leftSpace]) (state.lead v) := by
  have hboundary : Gathers (texts ++ literals [state.previous.rightSpace, v.leftSpace])
      (state.boundary (.word v)) := h.gathers.mergeSpace _ _ (.inl h.previous)
  rw [lead, if_pos h.foundWord]
  constructor
  · intro hnil
    have hcarried : state.carried = none :=
      h.gathers.eq_none_iff.mpr (List.append_eq_nil_iff.mp hnil).1
    rw [hboundary.eq_none_iff.mpr hnil, h.separated hcarried]
    rfl
  · intro hne
    obtain ⟨hnil, -⟩ | ⟨parts, hparts, hsub, hsome⟩ := hboundary
    · exact absurd hnil hne
    · rw [hsome]
      exact ⟨parts, hparts, hsub, rfl⟩

/-- **What is gathered up to the next word**, once a tag has been passed. -/
theorem head?_leadsAfter_tags {state : StripState} {texts : List Text} {right : Option Space}
    (h : state.HasPassed texts) (hright : state.previous.rightSpace = right) (tags : List Tag)
    (v : Word) (back : List Token) :
    ∃ lead, (leadsAfter state (tags.map .tag ++ .word v :: back)).head? = some lead ∧
      StandsFor (texts ++ literals (right :: sides tags ++ [v.leftSpace])) lead := by
  subst hright
  induction tags generalizing state texts with
  | nil => exact ⟨state.lead v, rfl, h.standsFor_lead v⟩
  | cons t tags ih =>
    obtain ⟨lead, hhead, hlead⟩ := ih (StripState.hasPassed_pass h.foundWord h.gathers t)
    refine ⟨lead, hhead, ?_⟩
    rw [List.append_assoc, ← Space.literals_append] at hlead
    exact hlead

/-- What the text between a word and the next word says, with `tags` between them: what is made of
their two spaces if there are no tags, and otherwise what stands for the tags, which keeps the words
apart unless an empty space was recorded. -/
structure Separates (w : Word) (tags : List Tag) (v : Word) (lead : Text) : Prop where
  direct : tags = [] → lead = Space.shown? (merge w.rightSpace v.leftSpace)
  stands : tags ≠ [] → StandsFor (literals (facing w tags v)) lead
  apart : tags ≠ [] → lead = [] → [] ∈ literals (facing w tags v)

theorem head?_leadsAfter_behind (w : Word) (tags : List Tag) (v : Word) (back : List Token) :
    ∃ lead, (leadsAfter (.behind w) (tags.map .tag ++ .word v :: back)).head? = some lead ∧
      Separates w tags v lead := by
  cases tags with
  | nil =>
    exact ⟨_, rfl, fun _ => lead_behind w v, fun h => absurd rfl h, fun h => absurd rfl h⟩
  | cons t tags =>
    have hpassed : ((StripState.behind w).pass t).HasPassed
        ([] ++ literals [w.rightSpace, t.leftSpace]) :=
      StripState.hasPassed_pass rfl (.inl ⟨rfl, rfl⟩) t
    obtain ⟨lead, hhead, hlead⟩ := head?_leadsAfter_tags hpassed rfl tags v back
    rw [List.nil_append, ← Space.literals_append] at hlead
    exact ⟨lead, hhead, nofun, fun _ => hlead, fun _ => hlead.mem_of_eq_nil⟩

/-! ## The sentence -/

/-- **What is shown of a sentence without markup**: its words once each and in their order, each
behind a text of its own, and the outer space on the right of the last token if this is a word. In
front of the first word it is the outer space of the first token if this is a word; between a word
and the next one with tags between them, a blank if none of the spaces beside them has characters,
and otherwise some of these characters side by side, which is nothing only if one of these spaces is
empty; and between two words next to each other what is made of their two spaces. -/
theorem stripped_separates (s : Sentence) :
    ∃ leads : List Text, leads.length = s.words.length ∧
      (∀ placeholders, s.stripped placeholders =
        shownBehind placeholders leads s.words ++ Space.literalOnly (outerRight s.tokens)) ∧
      (∀ lead ∈ leads.head?, lead = Space.literalOnly (outerLeft s.tokens)) ∧
      ∀ (front : List Token) (w : Word) (tags : List Tag) (v : Word) (back : List Token),
        s.tokens = front ++ .word w :: (tags.map .tag ++ .word v :: back) →
          ∃ lead, leads[(front.filterMap Token.word?).length + 1]? = some lead ∧
            Separates w tags v lead := by
  refine ⟨leadsOf s.tokens, ?_, fun placeholders => ?_, head?_leadsOf s.tokens, ?_⟩
  · rw [length_leadsOf, filterMap_word?_tokens]
  · rw [stripped, strippedOf_eq, filterMap_word?_tokens]
  · intro front w tags v back hrow
    obtain ⟨lead, hhead, hlead⟩ := head?_leadsAfter_behind w tags v back
    refine ⟨lead, ?_, hlead⟩
    have hlength : (leadsOf (front ++ [.word w])).length =
        (front.filterMap Token.word?).length + 1 := by
      rw [length_leadsOf, List.filterMap_append, List.length_append]
      rfl
    rw [hrow, leadsOf_append_word, List.getElem?_append_right (Nat.le_of_eq hlength), hlength,
      Nat.sub_self, ← List.head?_eq_getElem?, hhead]

/-- Three words, with a tag behind the first that records nothing, and with one behind the second
that records an empty space. -/
def gluedBehindTag : Sentence where
  words :=
    [.ofText none ['a'] none none, .ofText none ['b'] none none, .ofText none ['c'] none none]
  tags :=
    [⟨.xml, ['b'], ['<', 'b', '>'], none, none, 1, .opening, false⟩,
      ⟨.xml, ['b'], ['<', '/', 'b', '>'], some (.literal []), none, 2, .closing, false⟩]
  spaceConsistent := false
  annotations := .empty

example : gluedBehindTag.stripped false = "a bc".toList := by decide

end Sentence

end MarkupTransfer
