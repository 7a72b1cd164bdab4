import MarkupTransfer.Proofs.Draft.Tokens
/-!
# What becomes of malformed tags

A mark may ask for a tag where the text is none. Either the sentence is not built then, or the tag
is left out. A token depends on the marks beside its own alone and not on what becomes of these, so
each token can be told from its place among the accepted marks (`Accepted.tokens_eq_map_places`),
and leaving out tags changes nothing about the tokens that are kept: they stand where they would
stand and have the spaces they would have. Only then is the dialect looked for and are words
flagged, of the tags that are left.

* `Draft.policies_of_reachable`: the two ways to treat malformed tags differ on these alone.
-/

namespace MarkupTransfer

open Text (slice)

/-! ## Texts that are no tags -/

/-- Whether a role makes tags but none of a given text. -/
def Role.Rejects (text : Text) : Role → Prop
  | word => False
  | xmlTag => ∀ left right position, Tag.xml text left right position = .error ⟨text⟩
  | whitespaceTag =>
    ∀ left right position, Tag.whitespace text left right position = .error ⟨text⟩

/-- Whether a text is that of a tag does not depend on where it stands. -/
theorem Role.token_eq_error_iff {role : Role} {text placeholder : Text} {left right : Option Space}
    {position : Nat} {e : MalformedTag} :
    role.token text placeholder left right position = .error e ↔
      role.Rejects text ∧ e = ⟨text⟩ := by
  refine ⟨fun h => ⟨?_, (token_eq_error h).2⟩, fun ⟨h, he⟩ => ?_⟩
  · cases role with
    | word => cases h
    | xmlTag =>
      intro left right position
      simp only [token, Tag.xml] at h
      split at h
      · cases h
      · next hread => rw [Tag.xml, hread]
    | whitespaceTag =>
      intro left right position
      obtain _ | ⟨c, _ | ⟨c', text⟩⟩ := text
      · rfl
      · cases h
      · rfl
  · cases role with
    | word => exact h.elim
    | xmlTag => rw [token, h, he, Except.map]
    | whitespaceTag => rw [token, h, he, Except.map]

namespace MalformedPolicy

/-- Where malformed tags are errors, the first one is reported. -/
theorem select_abort_eq_error_iff {results : List (Except MalformedTag Token)} {e : MalformedTag} :
    abort.select results = .error e ↔
      ∃ (before : List Token) (behind : List (Except MalformedTag Token)),
        results = before.map .ok ++ .error e :: behind := by
  induction results with
  | nil => simp [select, pure, Except.pure]
  | cons r results ih =>
    simp only [select, List.mapM_cons] at ih ⊢
    cases r with
    | error e' =>
      constructor
      · intro h
        obtain rfl := Except.error.inj h
        exact ⟨[], results, rfl⟩
      · rintro ⟨_ | ⟨token, before⟩, behind, h⟩
        · exact congrArg Except.error (Except.error.inj (List.head_eq_of_cons_eq h))
        · cases List.head_eq_of_cons_eq h
    | ok token =>
      have hiff : (do
            let t ← id (Except.ok token)
            let ts ← results.mapM id
            pure (t :: ts) : Except MalformedTag (List Token)) = .error e ↔
          results.mapM id = .error e := by
        cases results.mapM id with
        | error e' => rfl
        | ok ts =>
          constructor
          · intro h
            cases h
          · intro h
            cases h
      rw [hiff, ih]
      constructor
      · rintro ⟨before, behind, rfl⟩
        exact ⟨token :: before, behind, rfl⟩
      · rintro ⟨_ | ⟨first, before⟩, behind, h⟩
        · cases List.head_eq_of_cons_eq h
        · exact ⟨before, behind, List.tail_eq_of_cons_eq h⟩

end MalformedPolicy

/-! ## Places -/

namespace Accepted

/-- An accepted mark among its neighbours. -/
structure Place where
  before : List Accepted
  here : Accepted
  behind : List Accepted

namespace Place

/-- The space on the left of a place. -/
def left (source : Text) (p : Place) : Option Space :=
  match p.before.getLast? with
  | none => gap source 0 p.here.mark.start
  | some a => a.between source p.here

/-- The space on the right of a place. -/
def right (source : Text) (p : Place) : Option Space := p.here.spaceAfter source p.behind

/-- Number of words that marks make in front of a place. -/
def position (p : Place) : Nat := p.before.countP fun a => !a.role.isTag

/-- The word of a place. -/
def word (source : Text) (p : Place) : Word :=
  .ofText (some (Markup.unescape (slice source p.here.mark.start p.here.mark.stop)))
    p.here.mark.placeholder (p.left source) (p.right source)

/-- The tag of a place, if a tag is asked for there and the text is that of a tag. -/
def tag? (source : Text) (p : Place) : Option Tag :=
  let raw := slice source p.here.mark.start p.here.mark.stop
  match p.here.role with
  | .word => none
  | .xmlTag => (Tag.xml raw (p.left source) (p.right source) p.position).toOption
  | .whitespaceTag => (Tag.whitespace raw (p.left source) (p.right source) p.position).toOption

/-- The token of a place, where a mark that is no tag leaves an error. -/
def token (source : Text) (p : Place) : Except MalformedTag Token :=
  p.here.role.token (p.here.text source) p.here.mark.placeholder (p.left source) (p.right source)
    p.position

end Place

/-- The places of marks that others have gone before. -/
def placesFrom (before : List Accepted) : List Accepted → List Place
  | [] => []
  | a :: rest => ⟨before, a, rest⟩ :: placesFrom (before ++ [a]) rest

/-- The places of marks, from left to right. -/
def places (as : List Accepted) : List Place := placesFrom [] as

theorem map_here_placesFrom (before as : List Accepted) :
    (placesFrom before as).map Place.here = as := by
  induction as generalizing before with
  | nil => rfl
  | cons a rest ih => rw [placesFrom, List.map_cons, ih]

theorem map_here_places (as : List Accepted) : (places as).map Place.here = as :=
  map_here_placesFrom [] as

theorem tokensFrom_eq_map_placesFrom {source : Text} {before as : List Accepted}
    {left : Option Space}
    (hleft : ∀ a ∈ as.head?, left = (Place.mk before a as.tail).left source) :
    tokensFrom source (before.countP fun a => !a.role.isTag) left as =
      (placesFrom before as).map (Place.token source) := by
  induction as generalizing before left with
  | nil => rfl
  | cons a rest ih =>
    obtain rfl := hleft a rfl
    have hcount : (if a.role.isTag then before.countP fun a => !a.role.isTag else
        (before.countP fun a => !a.role.isTag) + 1) =
          (before ++ [a]).countP fun a => !a.role.isTag := by
      cases hrole : a.role.isTag <;> simp [hrole]
    have hnext : ∀ b ∈ rest.head?, a.spaceAfter source rest =
        (Place.mk (before ++ [a]) b rest.tail).left source := by
      intro b hb
      obtain ⟨others, rfl⟩ := List.head?_eq_some_iff.mp hb
      simp [spaceAfter, Place.left]
    rw [tokensFrom, placesFrom, List.map_cons, hcount, ih hnext]
    rfl

/-- **A token is told by its place.** -/
theorem tokens_eq_map_places (source : Text) (as : List Accepted) :
    tokens source as = (places as).map (Place.token source) := by
  cases as with
  | nil => rfl
  | cons a rest =>
    have hleft : ∀ b ∈ (a :: rest).head?, gap source 0 a.mark.start =
        (Place.mk [] b (a :: rest).tail).left source := by
      intro b hb
      obtain rfl : a = b := Option.some.inj hb
      rfl
    exact tokensFrom_eq_map_placesFrom hleft

/-- What is kept of a place is its word or, if there is one, its tag. -/
theorem Place.toOption_token (source : Text) (p : Place) :
    (p.token source).toOption =
      if p.here.role = .word then some (.word (p.word source))
      else (p.tag? source).map .tag := by
  have hmap : ∀ r : Except MalformedTag Tag,
      (r.map Token.tag).toOption = r.toOption.map Token.tag := fun r => by cases r <;> rfl
  simp only [token, tag?, text]
  cases p.here.role with
  | word => rfl
  | xmlTag => exact hmap _
  | whitespaceTag => exact hmap _

theorem Place.tag?_of_word {source : Text} {p : Place} (h : p.here.role = .word) :
    p.tag? source = none := by
  simp only [tag?, h]

theorem filterMap_word?_places (source : Text) (ps : List Place) :
    ((ps.map (Place.token source)).filterMap Except.toOption).filterMap Token.word? =
      (ps.filter fun p => p.here.role = .word).map (Place.word source) := by
  rw [List.filterMap_filterMap, List.filterMap_map, ← List.filterMap_eq_map, List.filterMap_filter]
  refine List.filterMap_congr fun p _ => ?_
  rw [Function.comp, Place.toOption_token]
  by_cases hrole : p.here.role = .word
  · simp [hrole, Token.word?]
  · cases p.tag? source <;> simp [hrole, Token.word?]

theorem filterMap_tag?_places (source : Text) (ps : List Place) :
    ((ps.map (Place.token source)).filterMap Except.toOption).filterMap Token.tag? =
      ps.filterMap (Place.tag? source) := by
  rw [List.filterMap_filterMap, List.filterMap_map]
  refine List.filterMap_congr fun p _ => ?_
  rw [Function.comp, Place.toOption_token]
  by_cases hrole : p.here.role = .word
  · simp [hrole, Token.tag?, Place.tag?_of_word]
  · cases p.tag? source <;> simp [hrole, Token.tag?]

/-- Whether an accepted mark asks for a tag where the text that it covers is none. -/
def IsMalformed (source : Text) (a : Accepted) : Prop :=
  a.role.Rejects (slice source a.mark.start a.mark.stop)

theorem Place.token_eq_error_iff {source : Text} {p : Place} {e : MalformedTag} :
    p.token source = .error e ↔
      p.here.IsMalformed source ∧ e = ⟨slice source p.here.mark.start p.here.mark.stop⟩ := by
  rw [Place.token, Role.token_eq_error_iff, IsMalformed, text]
  cases p.here.role with
  | word => exact iff_of_false (fun h => h.1) fun h => h.1
  | xmlTag => exact Iff.rfl
  | whitespaceTag => exact Iff.rfl

/-- Where malformed tags are errors, tokens are made up to the first mark that is malformed. -/
theorem select_abort_tokens_eq_error_iff {source : Text} {as : List Accepted} {e : MalformedTag} :
    MalformedPolicy.abort.select (tokens source as) = .error e ↔
      ∃ before a behind, as = before ++ a :: behind ∧ a.IsMalformed source ∧
        (∀ b ∈ before, ¬ b.IsMalformed source) ∧ e = ⟨slice source a.mark.start a.mark.stop⟩ := by
  rw [MalformedPolicy.select_abort_eq_error_iff, tokens_eq_map_places]
  constructor
  · rintro ⟨kept, _, hresults⟩
    obtain ⟨front, _, hplaces, hfront, htail⟩ := List.map_eq_append_iff.mp hresults
    obtain ⟨p, back, rfl, hp, -⟩ := List.map_eq_cons_iff.mp htail
    obtain ⟨hmalformed, he⟩ := Place.token_eq_error_iff.mp hp
    refine ⟨front.map Place.here, p.here, back.map Place.here, ?_, hmalformed, ?_, he⟩
    · rw [← map_here_places as, hplaces, List.map_append, List.map_cons]
    · intro b hb hbad
      obtain ⟨q, hq, rfl⟩ := List.mem_map.mp hb
      have hmem : q.token source ∈ kept.map Except.ok := hfront ▸ List.mem_map_of_mem hq
      rw [Place.token_eq_error_iff.mpr ⟨hbad, rfl⟩] at hmem
      simp at hmem
  · rintro ⟨before, a, behind, has, hmalformed, hbefore, he⟩
    obtain ⟨front, _, hplaces, rfl, htail⟩ :=
      List.map_eq_append_iff.mp ((map_here_places as).trans has)
    obtain ⟨p, back, rfl, rfl, -⟩ := List.map_eq_cons_iff.mp htail
    have hkept : ∀ e, .error e ∉ front.map (Place.token source) := by
      intro e hmem
      obtain ⟨q, hq, hqe⟩ := List.mem_map.mp hmem
      exact hbefore _ (List.mem_map_of_mem hq) (Place.token_eq_error_iff.mp hqe).1
    refine ⟨(front.map (Place.token source)).filterMap Except.toOption,
      back.map (Place.token source), ?_⟩
    rw [hplaces, List.map_append, List.map_cons, Place.token_eq_error_iff.mpr ⟨hmalformed, he⟩,
      ← MalformedPolicy.select_eq_ok (p := .skip) (fun _ => hkept) rfl]

end Accepted

namespace Draft

/-- The tags kept of accepted marks stand in order, whatever a dialect makes of them. -/
theorem sortTags_retype_kept (source : Text) (as : List Accepted) (dialect : DialectPolicy) :
    Sentence.sortTags (dialect.retype (((Accepted.tokens source as).filterMap
        Except.toOption).filterMap Token.tag?)) =
      dialect.retype (((Accepted.tokens source as).filterMap Except.toOption).filterMap
        Token.tag?) := by
  obtain ⟨left, heq⟩ := Accepted.exists_tokens_eq source as
  rw [heq]
  exact Sentence.sortTags_eq_self (dialect.retype_ascending
    (Accepted.isNumbered_filterMap_tokensFrom source 0 left as).ascending)

/-- Where malformed tags are errors, a draft is not built just if one is found. -/
theorem build_abort_eq_error_iff {source : Text} {d : Draft} (hsource : d.source = some source)
    {dialect : DialectPolicy} {e : BuildError} :
    d.build ⟨.abort, dialect⟩ = .error e ↔
      ∃ f, MalformedPolicy.abort.select (Accepted.tokens source (Mark.accepted d.marks)) =
        .error f ∧ e = .malformedTag source f := by
  simp only [build, hsource]
  cases MalformedPolicy.abort.select (Accepted.tokens source (Mark.accepted d.marks)) with
  | error f =>
    constructor
    · exact fun he => ⟨f, rfl, (Except.error.inj he).symm⟩
    · rintro ⟨_, hf, rfl⟩
      rw [Except.error.inj hf]
  | ok ts =>
    constructor
    · intro he
      cases he
    · rintro ⟨_, hf, -⟩
      cases hf

/-- Where malformed tags are left out, a draft is built of the tokens that are kept. -/
theorem build_skip_eq {source : Text} {d : Draft} (hsource : d.source = some source)
    (dialect : DialectPolicy) :
    d.build ⟨.skip, dialect⟩ = .ok (assemble ⟨.skip, dialect⟩ d.annotations
      ((Accepted.tokens source (Mark.accepted d.marks)).filterMap Except.toOption)) := by
  simp only [build, hsource, MalformedPolicy.select]

/-- **The two ways to treat malformed tags differ on these alone.** Take any draft that sessions
have led to. Where malformed tags are errors, it is not built just if some accepted mark asks for a
tag where the text it covers is none, and the error tells the first of these texts and the whole
source. Where they are left out, it is always built. The words are those of all accepted marks that
make words, in their order and with the spaces that all accepted marks leave between them; the tags
are those of the accepted marks that make tags of what are tags, each with the position and the
spaces that it has among all accepted marks. The dialect and the flags are found out from the tags
that are left. If nothing was an error, it is this very sentence that is built. -/
theorem policies_of_reachable {source : Text} {d : Draft} (h : Reachable source d)
    (dialect : DialectPolicy) :
    ((Mark.accepted d.marks).Pairwise fun a b => a.mark.start ≤ b.mark.start) ∧
    (∀ a ∈ Mark.accepted d.marks, a.mark.IsAnchored source) ∧
    (∀ e, d.build ⟨.abort, dialect⟩ = .error e ↔
      ∃ before a behind, Mark.accepted d.marks = before ++ a :: behind ∧ a.IsMalformed source ∧
        (∀ b ∈ before, ¬ b.IsMalformed source) ∧
        e = .malformedTag source ⟨slice source a.mark.start a.mark.stop⟩) ∧
    ∃ s, d.build ⟨.skip, dialect⟩ = .ok s ∧
      s.words = flagWords s.tags (((Accepted.places (Mark.accepted d.marks)).filter
        fun p => p.here.role = .word).map (Accepted.Place.word source)) ∧
      s.tags = dialect.retype
        ((Accepted.places (Mark.accepted d.marks)).filterMap (Accepted.Place.tag? source)) ∧
      ∀ s', d.build ⟨.abort, dialect⟩ = .ok s' → s' = s := by
  refine ⟨Mark.accepted_ascending d.marks,
    fun a ha => h.isWoven.anchored a.mark (Mark.mem_of_mem_accepted ha).1, fun e => ?_, ?_⟩
  · rw [build_abort_eq_error_iff h.source_eq]
    constructor
    · rintro ⟨f, hf, rfl⟩
      obtain ⟨before, a, behind, has, hbad, hbefore, rfl⟩ :=
        Accepted.select_abort_tokens_eq_error_iff.mp hf
      exact ⟨before, a, behind, has, hbad, hbefore, rfl⟩
    · rintro ⟨before, a, behind, has, hbad, hbefore, rfl⟩
      exact ⟨_, Accepted.select_abort_tokens_eq_error_iff.mpr
        ⟨before, a, behind, has, hbad, hbefore, rfl⟩, rfl⟩
  · have htags := sortTags_retype_kept source (Mark.accepted d.marks) dialect
    refine ⟨_, build_skip_eq h.source_eq dialect, ?_, ?_, fun s' hs' => ?_⟩
    · rw [← Accepted.filterMap_word?_places, ← Accepted.tokens_eq_map_places]
      simp only [assemble, Sentence.ofTokens, htags]
    · rw [← Accepted.filterMap_tag?_places, ← Accepted.tokens_eq_map_places]
      exact htags
    · obtain ⟨ts, hts, rfl⟩ := build_eq_ok h.source_eq rfl hs'
      have hkept := MalformedPolicy.select_map_ok .skip ts
      rw [← hts, MalformedPolicy.select] at hkept
      rw [Except.ok.inj hkept]
      rfl

/-- A draft of `a<1> <b> c` in which both tags are marked, though the first is none. -/
def markedNumber : Draft :=
  (ofText "a<1> <b> c".toList).commit ((ofText "a<1> <b> c".toList).edit.recordEach
    [.token .word 0 1 none, .token .xmlTag 1 3 none, .token .xmlTag 5 3 none,
      .token .word 9 1 none])

theorem policies_of_reachable_markedNumber :
    Reachable "a<1> <b> c".toList markedNumber ∧
      markedNumber.build ⟨.abort, .detect⟩ =
        .error (.malformedTag "a<1> <b> c".toList ⟨"<1>".toList⟩) ∧
      ∃ s, markedNumber.build ⟨.skip, .detect⟩ = .ok s ∧
        s.tags = [⟨.xml, ['b'], "<b>".toList, some (.literal [' ']), some (.literal [' ']), 1,
          .opening, false⟩] ∧
        s.words = [⟨some ['a'], ['a'], none, some .virtual, false, true, true⟩,
          ⟨some ['c'], ['c'], some (.literal [' ']), none, true, false, false⟩] := by
  have hreach : Reachable "a<1> <b> c".toList markedNumber := .commit _ .ofText
  obtain ⟨-, -, habort, s, hs, hwords, htags, -⟩ := policies_of_reachable hreach .detect
  have haccepted : Mark.accepted markedNumber.marks =
      [⟨⟨0, 1, ['a'], none, some .word⟩, .word⟩] ++
        ⟨⟨1, 4, "<1>".toList, none, some .xmlTag⟩, .xmlTag⟩ ::
          [⟨⟨5, 8, "<b>".toList, none, some .xmlTag⟩, .xmlTag⟩,
            ⟨⟨9, 10, ['c'], none, some .word⟩, .word⟩] := by cbv
  refine ⟨hreach, (habort _).mpr ⟨_, _, _, haccepted, ?_, ?_, rfl⟩, s, hs, ?_⟩
  · exact fun _ _ _ => rfl
  · simp [Accepted.IsMalformed, Role.Rejects]
  · have htag : s.tags = [⟨.xml, ['b'], "<b>".toList, some (.literal [' ']), some (.literal [' ']),
        1, .opening, false⟩] := by
      rw [htags, haccepted]
      cbv
    refine ⟨htag, ?_⟩
    rw [hwords, htag, haccepted]
    cbv

end Draft

end MarkupTransfer
