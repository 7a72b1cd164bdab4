import MarkupTransfer.Draft.Build
import MarkupTransfer.Sentence.Render
import MarkupTransfer.Proofs.Draft.Claims
import MarkupTransfer.Proofs.Sentence.Order
import MarkupTransfer.Proofs.Text.Slices
/-!
# What a built sentence is shown as

A built sentence keeps its words and its tags apart, and its spaces twice. Shown with its markup it
is a patchwork of the source nevertheless: the accepted marks in order, each in its own form, and
between them what stands between them in the source, decoded.

* `Accepted.patchwork`: a text cut at marks and put together again, each part changed in its way.
* `Draft.markup_build`: a built sentence is shown as a patchwork of its source.
-/

namespace MarkupTransfer

open Space (mergeSpace)
open Text (slice slice_of_le)

/-! ## The tokens of accepted marks -/

/-- What a role makes of a stretch of text: a word, or a tag of one kind or the other. -/
theorem Role.token_cases {role : Role} {text placeholder : Text} {left right : Option Space}
    {position : Nat} {token : Token}
    (h : role.token text placeholder left right position = .ok token) :
    (role = .word ∧ token = .word (.ofText (some text) placeholder left right)) ∨
      ∃ kind name type isDeclaration,
        role = (if kind = .xml then .xmlTag else .whitespaceTag) ∧
          token = .tag ⟨kind, name, text, left, right, position, type, isDeclaration⟩ := by
  cases role with
  | word => exact .inl ⟨rfl, (Except.ok.inj h).symm⟩
  | xmlTag =>
    simp only [Role.token, Tag.xml] at h
    split at h
    · exact .inr ⟨.xml, _, _, _, rfl, (Except.ok.inj h).symm⟩
    · cases h
  | whitespaceTag =>
    simp only [Role.token, Tag.whitespace] at h
    split at h
    · exact .inr ⟨.whitespace, _, _, _, rfl, (Except.ok.inj h).symm⟩
    · cases h

theorem Role.token_eq_ok {role : Role} {text placeholder : Text} {left right : Option Space}
    {position : Nat} {token : Token}
    (h : role.token text placeholder left right position = .ok token) :
    token.cls = role.cls ∧ token.leftSpace = left ∧ token.rightSpace = right ∧
      Sentence.markupForm false token = (if role.isTag then text else Markup.escape text) ∧
      ∀ t, token = .tag t → t.position = position := by
  rcases Role.token_cases h with ⟨rfl, rfl⟩ | ⟨kind, _, _, _, rfl, rfl⟩
  · exact ⟨rfl, rfl, rfl, rfl, fun t ht => nomatch ht⟩
  · cases kind <;> exact ⟨rfl, rfl, rfl, rfl, fun t ht => by cases ht; rfl⟩

/-- Only tags can be malformed, and then their text is what is wrong with them. -/
theorem Role.token_eq_error {role : Role} {text placeholder : Text} {left right : Option Space}
    {position : Nat} {e : MalformedTag}
    (h : role.token text placeholder left right position = .error e) :
    role.isTag = true ∧ e = ⟨text⟩ := by
  cases role with
  | word => cases h
  | xmlTag =>
    simp only [Role.token, Tag.xml] at h
    split at h
    · cases h
    · exact ⟨rfl, (Except.error.inj h).symm⟩
  | whitespaceTag =>
    simp only [Role.token, Tag.whitespace] at h
    split at h
    · cases h
    · exact ⟨rfl, (Except.error.inj h).symm⟩

/-- Just one role makes tags of the kind of markup, and they keep their text. -/
theorem Role.xmlTexts_eq {role : Role} {text placeholder : Text} {left right : Option Space}
    {position : Nat} {token : Token}
    (h : role.token text placeholder left right position = .ok token) :
    (token.tag?.toList.filter fun t => t.kind == .xml).map Tag.text =
      if role = .xmlTag then [text] else [] := by
  rcases Role.token_cases h with ⟨rfl, rfl⟩ | ⟨kind, _, _, _, rfl, rfl⟩
  · rfl
  · cases kind <;> rfl

/-- Where malformed tags are errors, a sentence is made of all tokens. -/
theorem MalformedPolicy.select_abort {results : List (Except MalformedTag Token)}
    {tokens : List Token} (h : abort.select results = .ok tokens) :
    results = tokens.map .ok := by
  induction results generalizing tokens with
  | nil =>
    obtain rfl : [] = tokens := Except.ok.inj h
    rfl
  | cons r rs ih =>
    simp only [select, List.mapM_cons] at h ih
    cases r with
    | error e => cases h
    | ok token =>
      cases hrs : rs.mapM id with
      | error e =>
        rw [hrs] at h
        cases h
      | ok others =>
        rw [hrs] at h
        obtain rfl : token :: others = tokens := Except.ok.inj h
        rw [ih hrs, List.map_cons]

theorem MalformedPolicy.select_map_ok (p : MalformedPolicy) (tokens : List Token) :
    p.select (tokens.map .ok) = .ok tokens := by
  cases p with
  | abort =>
    induction tokens with
    | nil => rfl
    | cons token tokens ih =>
      simp only [select] at ih
      simp only [select, List.map_cons, List.mapM_cons, ih]
      rfl
  | skip =>
    induction tokens with
    | nil => rfl
    | cons token tokens ih =>
      have htail := Except.ok.inj ih
      simp only [select, List.map_cons, List.filterMap_cons, Except.toOption, htail]

namespace Accepted

/-- Whether an accepted mark becomes a token, whatever stands beside it. -/
def IsSound (source : Text) (a : Accepted) : Prop :=
  ∀ left right count, ∃ token,
    a.role.token (a.text source) a.mark.placeholder left right count = .ok token

theorem exists_tokensFrom {source : Text} {as : List Accepted} (h : ∀ a ∈ as, a.IsSound source)
    (count : Nat) (left : Option Space) :
    ∃ ts : List Token, tokensFrom source count left as = ts.map .ok := by
  induction as generalizing count left with
  | nil => exact ⟨[], rfl⟩
  | cons a rest ih =>
    obtain ⟨token, htoken⟩ := h a (by simp) left (a.spaceAfter source rest) count
    obtain ⟨others, hothers⟩ := ih (fun b hb => h b (by simp [hb]))
      (if a.role.isTag then count else count + 1) (a.spaceAfter source rest)
    exact ⟨token :: others, by rw [tokensFrom, htoken, hothers, List.map_cons]⟩

theorem exists_tokens {source : Text} {as : List Accepted} (h : ∀ a ∈ as, a.IsSound source) :
    ∃ ts : List Token, tokens source as = ts.map .ok := by
  cases as with
  | nil => exact ⟨[], rfl⟩
  | cons a rest => exact exists_tokensFrom h 0 _

theorem tokensFrom_cons_eq {source : Text} {count : Nat} {left : Option Space} {a : Accepted}
    {rest : List Accepted} {ts : List Token}
    (h : tokensFrom source count left (a :: rest) = ts.map .ok) :
    ∃ token others, ts = token :: others ∧
      a.role.token (a.text source) a.mark.placeholder left (a.spaceAfter source rest) count =
        .ok token ∧
      tokensFrom source (if a.role.isTag then count else count + 1) (a.spaceAfter source rest)
        rest = others.map .ok := by
  cases ts with
  | nil => cases h
  | cons token others =>
    obtain ⟨htoken, hothers⟩ := List.cons.inj h
    exact ⟨token, others, rfl, htoken, hothers⟩

/-- Every tag that is kept stands at the number of words before it, whatever is left out. -/
theorem isNumbered_filterMap_tokensFrom (source : Text) (count : Nat) (left : Option Space)
    (as : List Accepted) :
    Token.IsNumbered count ((tokensFrom source count left as).filterMap Except.toOption) := by
  induction as generalizing count left with
  | nil => trivial
  | cons a rest ih =>
    rw [tokensFrom]
    have hrest := ih (if a.role.isTag then count else count + 1) (a.spaceAfter source rest)
    cases htoken : a.role.token (a.text source) a.mark.placeholder left (a.spaceAfter source rest)
        count with
    | error e =>
      obtain ⟨htag, -⟩ := Role.token_eq_error htoken
      rw [if_pos htag] at hrest
      rw [List.filterMap_cons_none (f := Except.toOption) rfl, if_pos htag]
      exact hrest
    | ok token =>
      obtain ⟨hcls, -, -, -, hposition⟩ := Role.token_eq_ok htoken
      rw [List.filterMap_cons_some (f := Except.toOption) (b := token) rfl]
      cases token with
      | word w =>
        have hword : a.role.isTag = false := by simp [Role.isTag, ← hcls, Token.cls]
        rw [hword] at hrest ⊢
        exact hrest
      | tag t =>
        have htag : a.role.isTag = true := by simp [Role.isTag, ← hcls, Token.cls]
        rw [htag] at hrest ⊢
        exact ⟨hposition t rfl, hrest⟩

/-- Every tag stands at the number of words before it. -/
theorem isNumbered_tokensFrom {source : Text} {count : Nat} {left : Option Space}
    {as : List Accepted} {ts : List Token} (h : tokensFrom source count left as = ts.map .ok) :
    Token.IsNumbered count ts := by
  have hkept := isNumbered_filterMap_tokensFrom source count left as
  rwa [h, List.filterMap_map, show Except.toOption ∘ Except.ok = some from rfl,
    List.filterMap_some] at hkept

/-- The tags that come of markup are the texts of the marks that were accepted as markup. -/
theorem xmlTexts_tokensFrom {source : Text} {count : Nat} {left : Option Space}
    {as : List Accepted} {ts : List Token} (h : tokensFrom source count left as = ts.map .ok) :
    ((ts.filterMap Token.tag?).filter fun t => t.kind == .xml).map Tag.text =
      (as.filter fun a => a.role = .xmlTag).map fun a => a.text source := by
  induction as generalizing count left ts with
  | nil =>
    obtain rfl : ts = [] := List.map_eq_nil_iff.mp h.symm
    rfl
  | cons a rest ih =>
    obtain ⟨token, others, rfl, htoken, hothers⟩ := tokensFrom_cons_eq h
    have hfirst := Role.xmlTexts_eq htoken
    have hsplit : (token :: others).filterMap Token.tag? =
        token.tag?.toList ++ others.filterMap Token.tag? := by
      cases token <;> rfl
    rw [hsplit, List.filter_append, List.map_append, hfirst, ih hothers, List.filter_cons]
    by_cases hrole : a.role = .xmlTag <;> simp [hrole]

/-! ## Spaces -/

theorem literalOnly_gap (source : Text) (start stop : Nat) :
    Space.literalOnly (gap source start stop) = Markup.unescape (slice source start stop) := by
  rw [gap]
  split
  · rfl
  · next h =>
    rw [slice_of_le source (Nat.not_lt.mp h)]
    rfl

/-- **Two neighbours show what stands between them in the source.** A boundary without characters
vanishes next to a tag. -/
theorem shown_between (source : Text) (a b : Accepted) :
    Space.shown? (mergeSpace none (a.between source b) (a.between source b) a.role.cls b.role.cls) =
      Markup.unescape (slice source a.mark.stop b.mark.start) := by
  rw [between, gap]
  split
  · cases a.role <;> cases b.role <;>
      simp [mergeSpace, Space.merge, Space.onlyLiteral, Space.isLiteral, Space.literal?, Role.cls,
        Space.shown?, Space.shown, Option.filter]
  · next h =>
    rw [slice_of_le source (Nat.not_lt.mp h)]
    cases a.role <;> cases b.role <;> rfl

/-! ## The patchwork -/

/-- A source cut at marks and put together again, from `cursor` on: what stands between marks is
changed by `outside` and what they cover by `inside`. -/
def patchwork (outside : Text → Text) (inside : Accepted → Text → Text) (source : Text)
    (cursor : Nat) : List Accepted → Text
  | [] => outside (slice source cursor source.size)
  | a :: rest =>
    outside (slice source cursor a.mark.start) ++
      inside a (slice source a.mark.start a.mark.stop) ++
        patchwork outside inside source a.mark.stop rest

/-- The form of an accepted mark inside markup: a tag as it stands, a word decoded and escaped. -/
def form (a : Accepted) (raw : Text) : Text :=
  if a.role.isTag then raw else Markup.escape (Markup.unescape raw)

theorem form_eq (source : Text) (a : Accepted) :
    (if a.role.isTag then a.text source else Markup.escape (a.text source)) =
      a.form (slice source a.mark.start a.mark.stop) := by
  cases h : a.role.isTag <;> simp [text, form, h]

theorem markupAfter_tokensFrom {source : Text} {count : Nat} {left : Option Space} {a : Accepted}
    {rest : List Accepted} {token : Token} {others : List Token}
    (h : tokensFrom source count left (a :: rest) = (token :: others).map .ok) :
    Sentence.markupForm false token ++ Sentence.markupAfter false false token others =
      a.form (slice source a.mark.start a.mark.stop) ++
        patchwork Markup.unescape form source a.mark.stop rest := by
  induction rest generalizing count left a token others with
  | nil =>
    obtain ⟨_, _, hcons, htoken, hothers⟩ := tokensFrom_cons_eq h
    obtain ⟨rfl, rfl⟩ := List.cons.inj hcons
    obtain rfl : others = [] := List.map_eq_nil_iff.mp hothers.symm
    obtain ⟨-, -, hright, hform, -⟩ := Role.token_eq_ok htoken
    rw [Sentence.markupAfter, hright, hform, form_eq, spaceAfter, literalOnly_gap, patchwork]
  | cons b rest ih =>
    obtain ⟨_, _, hcons, htoken, hothers⟩ := tokensFrom_cons_eq h
    obtain ⟨rfl, rfl⟩ := List.cons.inj hcons
    obtain ⟨hcls, -, hright, hform, -⟩ := Role.token_eq_ok htoken
    obtain ⟨next, others, rfl, hnext, -⟩ := tokensFrom_cons_eq hothers
    obtain ⟨hcls', hleft', -, -, -⟩ := Role.token_eq_ok hnext
    have hbetween : Sentence.markupAfter false false token (next :: others) =
        Markup.unescape (slice source a.mark.stop b.mark.start) ++
          (Sentence.markupForm false next ++ Sentence.markupAfter false false next others) := by
      rw [Sentence.markupAfter, hright, hleft', hcls, hcls', spaceAfter, if_neg Bool.false_ne_true,
        shown_between, List.append_assoc]
    rw [hbetween, ih hothers, hform, form_eq, patchwork]
    simp only [List.append_assoc]

/-- The tokens of accepted marks are shown as a patchwork of the source. -/
theorem markupOf_tokens {source : Text} {as : List Accepted} {ts : List Token}
    (hne : as ≠ []) (h : tokens source as = ts.map .ok) :
    Sentence.markupOf false false ts = patchwork Markup.unescape form source 0 as := by
  cases as with
  | nil => exact absurd rfl hne
  | cons a rest =>
    obtain ⟨first, others, rfl, hfirst, -⟩ := tokensFrom_cons_eq h
    obtain ⟨-, hleft, -, -, -⟩ := Role.token_eq_ok hfirst
    rw [Sentence.markupOf, hleft, literalOnly_gap, List.append_assoc, markupAfter_tokensFrom h,
      patchwork, List.append_assoc]

/-- Where nothing is changed the patchwork is the source itself. -/
theorem patchwork_unchanged (source : Text) {cursor : Nat} {as : List Accepted}
    (hcursor : ∀ a ∈ as, cursor ≤ a.mark.start)
    (hordered : ∀ a ∈ as, a.mark.start ≤ a.mark.stop)
    (hapart : as.Pairwise fun a b => a.mark.stop ≤ b.mark.start) :
    patchwork (fun t => t) (fun _ t => t) source cursor as = slice source cursor source.size := by
  induction as generalizing cursor with
  | nil => rfl
  | cons a rest ih =>
    obtain ⟨hfirst, hrest⟩ := List.pairwise_cons.mp hapart
    have hstart := hcursor a (by simp)
    have hstop := hordered a (by simp)
    rw [patchwork, ih hfirst (fun b hb => hordered b (by simp [hb])) hrest,
      Text.slice_append_slice source hstart hstop,
      Text.slice_append_rest source (Nat.le_trans hstart hstop)]

end Accepted

/-! ## The sentence of the tokens -/

namespace Sentence

/-- A word without the flag that is set once all tokens are known. -/
def unflagged (w : Word) : Word := { w with tagRightSpaceRequired := false }

/-- A tag without its type, which a dialect may change. -/
def untyped (t : Tag) : Tag := { t with type := .empty }

theorem markupAfter_map (consistent placeholders : Bool) (previous : Token) (ts : List Token) :
    markupAfter consistent placeholders (previous.map unflagged untyped)
        (ts.map (Token.map unflagged untyped)) =
      markupAfter consistent placeholders previous ts := by
  induction ts generalizing previous with
  | nil => cases previous <;> rfl
  | cons token ts ih =>
    rw [List.map_cons, markupAfter, markupAfter, ih]
    cases previous <;> cases token <;> rfl

/-- What a row of tokens is shown as depends on neither flags nor types. -/
theorem markupOf_map (consistent placeholders : Bool) (ts : List Token) :
    markupOf consistent placeholders (ts.map (Token.map unflagged untyped)) =
      markupOf consistent placeholders ts := by
  cases ts with
  | nil => rfl
  | cons first rest =>
    rw [List.map_cons, markupOf, markupOf, markupAfter_map]
    cases first <;> rfl

end Sentence

open Sentence (unflagged untyped)

theorem map_unflagged_flagWords (tags : List Tag) (words : List Word) :
    (flagWords tags words).map unflagged = words.map unflagged := by
  refine List.ext_getElem (by simp [flagWords]) fun i h₁ h₂ => ?_
  simp only [flagWords, List.getElem_map, List.getElem_mapIdx]
  split <;> rfl

theorem DialectPolicy.map_untyped_retype (p : DialectPolicy) (tags : List Tag) :
    (p.retype tags).map untyped = tags.map untyped := by
  rw [retype]
  cases p.dialect? tags with
  | none => rfl
  | some d =>
    rw [List.map_map]
    refine List.map_congr_left fun t _ => ?_
    simp only [Function.comp, Dialect.retype]
    split
    · rfl
    · split <;> rfl

theorem DialectPolicy.retype_ascending (p : DialectPolicy) {tags : List Tag}
    (h : tags.Pairwise fun a b => a.position ≤ b.position) :
    (p.retype tags).Pairwise fun a b => a.position ≤ b.position := by
  have hmap : ((p.retype tags).map untyped).Pairwise fun a b => a.position ≤ b.position := by
    rw [map_untyped_retype]
    exact List.pairwise_map.mpr h
  exact (List.pairwise_map (f := untyped) (R := fun a b : Tag => a.position ≤ b.position)).mp hmap

namespace Draft

/-- A sentence made of a numbered row of tokens has these tokens, up to flags and types. -/
theorem tokens_assemble (options : Options) (annotations : Annotations) {ts : List Token}
    (h : Token.IsNumbered 0 ts) :
    (assemble options annotations ts).tokens.map (Token.map unflagged untyped) =
      ts.map (Token.map unflagged untyped) := by
  have hsort := Sentence.sortTags_eq_self (options.dialect.retype_ascending h.ascending)
  simp only [assemble, Sentence.ofTokens, Sentence.tokens, hsort]
  rw [← Sentence.interleave_map unflagged (g := untyped) fun _ => rfl, map_unflagged_flagWords,
    DialectPolicy.map_untyped_retype,
    Sentence.interleave_map unflagged (g := untyped) fun _ => rfl,
    Sentence.interleave_of_isNumbered h]

/-- Where malformed tags are errors, every accepted mark becomes a token. -/
theorem build_eq_ok {d : Draft} {options : Options} {source : Text} {s : Sentence}
    (hsource : d.source = some source) (habort : options.malformed = .abort)
    (h : d.build options = .ok s) :
    ∃ ts, Accepted.tokens source (Mark.accepted d.marks) = ts.map .ok ∧
      s = assemble options d.annotations ts := by
  simp only [build, hsource, habort] at h
  split at h
  · cases h
  · next ts hts => exact ⟨ts, MalformedPolicy.select_abort hts, (Except.ok.inj h).symm⟩

/-- **The tags of markup of a built sentence** are, in order, the marks accepted as markup. -/
theorem xmlTexts_build {d : Draft} {options : Options} {source : Text} {s : Sentence}
    (hsource : d.source = some source) (habort : options.malformed = .abort)
    (h : d.build options = .ok s) :
    (s.tags.filter fun t => t.kind == .xml).map Tag.text =
      ((Mark.accepted d.marks).filter fun a => a.role = .xmlTag).map fun a => a.text source := by
  obtain ⟨ts, hts, rfl⟩ := build_eq_ok hsource habort h
  cases hacc : Mark.accepted d.marks with
  | nil =>
    rw [hacc] at hts
    obtain rfl : ts = [] := List.map_eq_nil_iff.mp hts.symm
    have hnil := DialectPolicy.map_untyped_retype options.dialect []
    simp [assemble, Sentence.ofTokens, Sentence.sortTags, List.map_eq_nil_iff.mp hnil]
  | cons a rest =>
    rw [hacc] at hts
    have huntyped : ∀ tags : List Tag, (tags.filter fun t => t.kind == .xml).map Tag.text =
        ((tags.map untyped).filter fun t => t.kind == .xml).map Tag.text := by
      intro tags
      rw [List.filter_map, List.map_map]
      rfl
    have hsort := Sentence.sortTags_eq_self (options.dialect.retype_ascending
      (Accepted.isNumbered_tokensFrom hts).ascending)
    rw [← Accepted.xmlTexts_tokensFrom hts, huntyped (ts.filterMap Token.tag?),
      ← DialectPolicy.map_untyped_retype options.dialect, ← huntyped, assemble, Sentence.ofTokens]
    simp only [hsort]

/-- A built sentence has as many tags of markup as marks were accepted as markup. -/
theorem length_filter_tags_build {d : Draft} {options : Options} {source : Text} {s : Sentence}
    (hsource : d.source = some source) (habort : options.malformed = .abort)
    (h : d.build options = .ok s) :
    (s.tags.filter fun t => t.kind == .xml).length =
      ((Mark.accepted d.marks).filter fun a => a.role = .xmlTag).length := by
  simpa using congrArg List.length (xmlTexts_build hsource habort h)

/-- A sentence is built if every accepted mark becomes a token. -/
theorem exists_build_eq {d : Draft} {source : Text} (options : Options)
    (hsource : d.source = some source)
    (hsound : ∀ a ∈ Mark.accepted d.marks, a.IsSound source) :
    ∃ s, d.build options = .ok s := by
  obtain ⟨ts, hts⟩ := Accepted.exists_tokens hsound
  exact ⟨assemble options d.annotations ts, by
    simp only [build, hsource, hts, MalformedPolicy.select_map_ok]⟩

/-- **A built sentence is shown as a patchwork of its source.** -/
theorem markup_build {d : Draft} {options : Options} {source : Text} {s : Sentence}
    (hsource : d.source = some source) (habort : options.malformed = .abort)
    (h : d.build options = .ok s) (hne : Mark.accepted d.marks ≠ []) :
    s.markup false =
      Accepted.patchwork Markup.unescape Accepted.form source 0 (Mark.accepted d.marks) := by
  obtain ⟨ts, hts, rfl⟩ := build_eq_ok hsource habort h
  have hnumbered : Token.IsNumbered 0 ts := by
    cases hacc : Mark.accepted d.marks with
    | nil => exact absurd hacc hne
    | cons a rest =>
      rw [hacc] at hts
      exact Accepted.isNumbered_tokensFrom hts
  rw [← Accepted.markupOf_tokens hne hts, Sentence.markup, ← Sentence.markupOf_map _ _ ts,
    ← tokens_assemble options d.annotations hnumbered, Sentence.markupOf_map]
  rfl

/-- A sentence built of no accepted mark shows nothing. -/
theorem markup_build_of_accepted_nil {d : Draft} {options : Options} {source : Text} {s : Sentence}
    (hsource : d.source = some source) (habort : options.malformed = .abort)
    (h : d.build options = .ok s) (hnil : Mark.accepted d.marks = []) : s.markup false = [] := by
  obtain ⟨ts, hts, rfl⟩ := build_eq_ok hsource habort h
  rw [hnil] at hts
  obtain rfl : ts = [] := List.map_eq_nil_iff.mp hts.symm
  have htokens := @tokens_assemble options d.annotations [] trivial
  rw [Sentence.markup, List.map_eq_nil_iff.mp htokens]
  rfl

end Draft

end MarkupTransfer
