import Mathlib
import MarkupTransfer.Proofs.Draft.Commit
/-!
# The tokens of a built sentence

The words and the tags of a sentence are made apart from each other, every space is worked out once
for the token on its left and once for the token on its right, and dialects and flags change tokens
after that. In document order the tokens are the accepted marks all the same, one by one.

* `Accepted.AreLaidOut`: what the tokens of accepted marks are, and the spaces on their sides.
* `Draft.tokens_of_reachable`: the tokens of a sentence built of any draft that sessions lead to.
-/

namespace MarkupTransfer

open Sentence (unflagged untyped)
open Text (slice size)

/-! ## Tokens and the marks they are made of -/

/-- If no token is left out, a sentence is made of all tokens. -/
theorem MalformedPolicy.select_eq_ok {p : MalformedPolicy}
    {results : List (Except MalformedTag Token)} {tokens : List Token}
    (hkept : p = .skip → ∀ e, .error e ∉ results) (h : p.select results = .ok tokens) :
    results = tokens.map .ok := by
  cases p with
  | abort => exact select_abort h
  | skip =>
    obtain rfl := Except.ok.inj h
    replace hkept := hkept rfl
    clear h
    induction results with
    | nil => rfl
    | cons r results ih =>
      cases r with
      | error e => exact absurd List.mem_cons_self (hkept e)
      | ok token =>
        have hrest := ih fun e he => hkept e (List.mem_cons_of_mem _ he)
        rw [List.filterMap_cons_some (f := Except.toOption) (b := token) rfl, List.map_cons,
          ← hrest]

namespace Accepted

/-- What a token has of the mark it is made of: its kind, and the text that the mark covers. The
text of a word is decoded, and its placeholder is that of the mark. -/
def Makes (source : Text) (a : Accepted) : Token → Prop
  | .word w => a.role = .word ∧ w.placeholder = a.mark.placeholder ∧
      w.text = some (Markup.unescape (slice source a.mark.start a.mark.stop))
  | .tag t => a.role = (if t.kind = .xml then .xmlTag else .whitespaceTag) ∧
      t.text = slice source a.mark.start a.mark.stop

/-- What two neighbours have between them. Both say the same: the text that stands there in the
source, decoded; without any, a boundary if just one of them is a tag. -/
@[mk_iff]
structure Faces (source : Text) (p q : Accepted × Token) : Prop where
  agree : p.2.rightSpace = q.2.leftSpace
  literal : p.1.mark.stop < q.1.mark.start → p.2.rightSpace =
    some (.literal (Markup.unescape (slice source p.1.mark.stop q.1.mark.start)))
  virtual : ¬ p.1.mark.stop < q.1.mark.start → p.2.isTag ≠ q.2.isTag →
    p.2.rightSpace = some .virtual
  none : ¬ p.1.mark.stop < q.1.mark.start → p.2.isTag = q.2.isTag → p.2.rightSpace = none

/-- Tokens are laid out as their marks are: one token a mark, in the order of the marks, with what
stands between two marks between their tokens and the outer text on the outer sides. -/
@[mk_iff]
structure AreLaidOut (source : Text) (as : List Accepted) (ts : List Token) : Prop where
  made : List.Forall₂ (Makes source) as ts
  facing : (as.zip ts).IsChain (Faces source)
  first : ∀ p ∈ (as.zip ts).head?, p.2.leftSpace = if 0 < p.1.mark.start then
    some (.literal (Markup.unescape (slice source 0 p.1.mark.start))) else Option.none
  last : ∀ p ∈ (as.zip ts).getLast?, p.2.rightSpace = if p.1.mark.stop < size source then
    some (.literal (Markup.unescape (slice source p.1.mark.stop (size source)))) else Option.none

theorem AreLaidOut.map_fst_zip {source : Text} {as : List Accepted} {ts : List Token}
    (h : AreLaidOut source as ts) : (as.zip ts).map Prod.fst = as :=
  List.map_fst_zip (Nat.le_of_eq h.made.length_eq)

theorem AreLaidOut.map_snd_zip {source : Text} {as : List Accepted} {ts : List Token}
    (h : AreLaidOut source as ts) : (as.zip ts).map Prod.snd = ts :=
  List.map_snd_zip (Nat.le_of_eq h.made.length_eq.symm)

theorem makes_of_token_eq {source : Text} {a : Accepted} {left right : Option Space} {count : Nat}
    {token : Token}
    (h : a.role.token (a.text source) a.mark.placeholder left right count = .ok token) :
    a.Makes source token := by
  rcases Role.token_cases h with ⟨hrole, rfl⟩ | ⟨kind, _, _, _, hrole, rfl⟩
  · have hword : a.role.isTag = false := by rw [hrole]; rfl
    refine ⟨hrole, rfl, ?_⟩
    simp [Word.ofText, text, hword]
  · have htag : a.role.isTag = true := by
      rw [hrole]
      split <;> rfl
    refine ⟨hrole, ?_⟩
    simp [text, htag]

theorem faces_of_between {source : Text} {a b : Accepted} {x y : Token} (hx : x.cls = a.role.cls)
    (hy : y.cls = b.role.cls) (hright : x.rightSpace = a.between source b)
    (hleft : y.leftSpace = a.between source b) : Faces source (a, x) (b, y) where
  agree := hright.trans hleft.symm
  literal hlt := by
    rw [hright, between, gap, if_pos hlt]
    rfl
  virtual hlt hne := by
    have hroles : a.role.isTag ≠ b.role.isTag := by
      simpa only [Token.isTag, Role.isTag, hx, hy] using hne
    rw [hright, between, gap, if_neg hlt, touching, if_neg hroles]
    rfl
  none hlt heq := by
    have hroles : a.role.isTag = b.role.isTag := by
      simpa only [Token.isTag, Role.isTag, hx, hy] using heq
    rw [hright, between, gap, if_neg hlt, touching, if_pos hroles]
    rfl

section TokensFrom

variable {source : Text} {count : Nat} {left : Option Space} {as : List Accepted} {ts : List Token}

theorem forall₂_makes (h : tokensFrom source count left as = ts.map .ok) :
    List.Forall₂ (Makes source) as ts := by
  induction as generalizing count left ts with
  | nil =>
    obtain rfl : ts = [] := List.map_eq_nil_iff.mp h.symm
    exact .nil
  | cons a rest ih =>
    obtain ⟨token, others, rfl, htoken, hothers⟩ := tokensFrom_cons_eq h
    exact .cons (makes_of_token_eq htoken) (ih hothers)

theorem isChain_faces (h : tokensFrom source count left as = ts.map .ok) :
    (as.zip ts).IsChain (Faces source) := by
  induction as generalizing count left ts with
  | nil => exact .nil
  | cons a rest ih =>
    obtain ⟨token, others, rfl, htoken, hothers⟩ := tokensFrom_cons_eq h
    have hrest := ih hothers
    cases rest with
    | nil => exact .singleton _
    | cons b rest =>
      obtain ⟨next, others, rfl, hnext, -⟩ := tokensFrom_cons_eq hothers
      obtain ⟨hcls, -, hright, -, -⟩ := Role.token_eq_ok htoken
      obtain ⟨hcls', hleft, -, -, -⟩ := Role.token_eq_ok hnext
      exact .cons_cons (faces_of_between hcls hcls' hright hleft) hrest

theorem rightSpace_of_getLast? (h : tokensFrom source count left as = ts.map .ok) :
    ∀ p ∈ (as.zip ts).getLast?, p.2.rightSpace = gap source p.1.mark.stop (size source) := by
  induction as generalizing count left ts with
  | nil => simp
  | cons a rest ih =>
    obtain ⟨token, others, rfl, htoken, hothers⟩ := tokensFrom_cons_eq h
    have hrest := ih hothers
    cases rest with
    | nil =>
      obtain ⟨-, -, hright, -, -⟩ := Role.token_eq_ok htoken
      simpa [spaceAfter] using hright
    | cons b rest =>
      obtain ⟨next, others, rfl, -, -⟩ := tokensFrom_cons_eq hothers
      simpa only [List.zip_cons_cons, List.getLast?_cons_cons] using hrest

/-- No word is flagged before all tokens are known. -/
theorem flag_eq_false (h : tokensFrom source count left as = ts.map .ok) {w : Word}
    (hw : .word w ∈ ts) : w.tagRightSpaceRequired = false := by
  induction as generalizing count left ts with
  | nil =>
    obtain rfl : ts = [] := List.map_eq_nil_iff.mp h.symm
    cases hw
  | cons a rest ih =>
    obtain ⟨token, others, rfl, htoken, hothers⟩ := tokensFrom_cons_eq h
    rcases List.mem_cons.mp hw with rfl | hw
    · rcases Role.token_cases htoken with ⟨-, heq⟩ | ⟨_, _, _, _, -, heq⟩
      · obtain rfl := Token.word.inj heq
        rfl
      · cases heq
    · exact ih hothers hw

end TokensFrom

/-- The tokens of accepted marks begin where no word and no token has gone before. -/
theorem exists_tokens_eq (source : Text) (as : List Accepted) :
    ∃ left, tokens source as = tokensFrom source 0 left as := by
  cases as with
  | nil => exact ⟨none, rfl⟩
  | cons a rest => exact ⟨_, rfl⟩

/-- **The tokens of accepted marks are laid out as the marks are.** -/
theorem areLaidOut_tokens {source : Text} {as : List Accepted} {ts : List Token}
    (h : tokens source as = ts.map .ok) : AreLaidOut source as ts := by
  cases as with
  | nil =>
    obtain rfl : ts = [] := List.map_eq_nil_iff.mp h.symm
    exact ⟨.nil, .nil, by simp, by simp⟩
  | cons a rest =>
    obtain ⟨token, others, rfl, htoken, -⟩ := tokensFrom_cons_eq h
    obtain ⟨-, hleft, -, -, -⟩ := Role.token_eq_ok htoken
    refine ⟨forall₂_makes h, isChain_faces h, ?_, rightSpace_of_getLast? h⟩
    simpa [gap] using hleft

theorem makes_map_iff {source : Text} {a : Accepted} {t : Token} :
    a.Makes source (t.map unflagged untyped) ↔ a.Makes source t := by
  cases t <;> exact Iff.rfl

theorem leftSpace_map (t : Token) : (t.map unflagged untyped).leftSpace = t.leftSpace := by
  cases t <;> rfl

theorem rightSpace_map (t : Token) : (t.map unflagged untyped).rightSpace = t.rightSpace := by
  cases t <;> rfl

theorem faces_map {source : Text} {p q : Accepted × Token} :
    Faces source (p.map id (Token.map unflagged untyped)) (q.map id (Token.map unflagged untyped)) ↔
      Faces source p q := by
  simp only [faces_iff, Prod.map_fst, Prod.map_snd, id_eq, Token.isTag_map, rightSpace_map,
    leftSpace_map]

/-- How tokens are laid out does not show in flags and types. -/
theorem areLaidOut_map {source : Text} {as : List Accepted} {ts : List Token} :
    AreLaidOut source as (ts.map (Token.map unflagged untyped)) ↔ AreLaidOut source as ts := by
  rw [areLaidOut_iff, areLaidOut_iff]
  simp only [List.forall₂_map_right_iff, makes_map_iff, List.zip_map_right, List.isChain_map,
    faces_map, List.head?_map, List.getLast?_map, Option.mem_map, forall_exists_index, and_imp,
    forall_apply_eq_imp_iff₂, Prod.map_fst, Prod.map_snd, id_eq, rightSpace_map, leftSpace_map]

end Accepted

/-! ## Flags -/

theorem flag_flagWords {tags : List Tag} {words front back : List Word} {w : Word}
    (hflags : ∀ w ∈ words, w.tagRightSpaceRequired = false)
    (h : flagWords tags words = front ++ w :: back) :
    w.tagRightSpaceRequired = true ↔
      ∃ t ∈ tags, t.position = front.length + 1 ∧ t.rightSpace.isSome = true := by
  have hw : (flagWords tags words)[front.length]? = some w := by
    rw [h, List.getElem?_append_right (Nat.le_refl _), Nat.sub_self]
    rfl
  rw [flagWords, List.getElem?_mapIdx, Option.map_eq_some_iff] at hw
  obtain ⟨v, hv, rfl⟩ := hw
  have hfalse := hflags v (List.mem_of_getElem? hv)
  split
  · next hany =>
    refine iff_of_true rfl ?_
    simpa [and_comm] using hany
  · next hany =>
    refine iff_of_false (by simp [hfalse]) ?_
    simpa [and_comm] using hany

namespace Draft

variable {source : Text} {options : Options} {annotations : Annotations} {ts : List Token}

theorem isNumbered_tokens {as : List Accepted} (h : Accepted.tokens source as = ts.map .ok) :
    Token.IsNumbered 0 ts := by
  obtain ⟨left, heq⟩ := Accepted.exists_tokens_eq source as
  exact Accepted.isNumbered_tokensFrom (heq.symm.trans h)

/-- The tokens of a sentence are as numbered as those it is made of. -/
theorem isNumbered_assemble (h : Token.IsNumbered 0 ts) :
    Token.IsNumbered 0 (assemble options annotations ts).tokens := by
  rw [← Token.isNumbered_map (f := unflagged) (g := untyped) fun _ => rfl,
    tokens_assemble options annotations h, Token.isNumbered_map (g := untyped) fun _ => rfl]
  exact h

theorem areLaidOut_assemble {as : List Accepted} (h : Accepted.tokens source as = ts.map .ok) :
    Accepted.AreLaidOut source as (assemble options annotations ts).tokens := by
  rw [← Accepted.areLaidOut_map, tokens_assemble _ _ (isNumbered_tokens h), Accepted.areLaidOut_map]
  exact Accepted.areLaidOut_tokens h

/-- A draft all of whose accepted marks become tokens is built without leaving out any. -/
theorem exists_build_areLaidOut {d : Draft} (options : Options) (hsource : d.source = some source)
    (hsound : ∀ a ∈ Mark.accepted d.marks, a.IsSound source) :
    ∃ s, d.build options = .ok s ∧
      Accepted.AreLaidOut source (Mark.accepted d.marks) s.tokens := by
  obtain ⟨ts, hts⟩ := Accepted.exists_tokens hsound
  refine ⟨assemble options d.annotations ts, ?_, areLaidOut_assemble hts⟩
  simp only [build, hsource, hts, MalformedPolicy.select_map_ok]

/-- **A word is flagged just if a tag directly behind it has a space on its right.** -/
theorem flag_assemble (h : Token.IsNumbered 0 ts)
    (hflags : ∀ w, .word w ∈ ts → w.tagRightSpaceRequired = false) {front back : List Token}
    {w : Word} (htokens : (assemble options annotations ts).tokens = front ++ .word w :: back) :
    w.tagRightSpaceRequired = true ↔
      ∃ t, .tag t ∈ back.takeWhile Token.isTag ∧ t.rightSpace.isSome = true := by
  have hnumbered : Token.IsNumbered 0 (front ++ .word w :: back) := by
    rw [← htokens]
    exact isNumbered_assemble h
  have hback : Token.IsNumbered (0 + (front.filterMap Token.word?).length + 1) back :=
    hnumbered.drop
  have hwords : flagWords (options.dialect.retype (ts.filterMap Token.tag?))
      (ts.filterMap Token.word?) =
        front.filterMap Token.word? ++ w :: back.filterMap Token.word? := by
    rw [← Token.filterMap_word?_word, ← List.filterMap_append, ← htokens, Sentence.tokens,
      Sentence.filterMap_word?_interleave]
    rfl
  have hmem : ∀ t, t ∈ options.dialect.retype (ts.filterMap Token.tag?) ↔
      .tag t ∈ front ++ .word w :: back := by
    intro t
    rw [← htokens, ← Token.mem_filterMap_tag?, Sentence.tokens, Sentence.filterMap_tag?_interleave]
    exact (Sentence.sortTags_perm _).mem_iff.symm
  rw [flag_flagWords (fun v hv => hflags v (Token.mem_filterMap_word?.mp hv)) hwords]
  constructor
  · rintro ⟨t, ht, hposition, hspace⟩
    refine ⟨t, hback.mem_takeWhile_iff.mpr ⟨?_, by omega⟩, hspace⟩
    rcases List.mem_append.mp ((hmem t).mp ht) with hfront | hbehind
    · have := hnumbered.position_le hfront
      omega
    · simpa using hbehind
  · rintro ⟨t, ht, hspace⟩
    obtain ⟨hbehind, hposition⟩ := hback.mem_takeWhile_iff.mp ht
    exact ⟨t, (hmem t).mpr (by simp [hbehind]), by omega, hspace⟩

/-- **A built sentence is made of its accepted marks.** Take any draft that sessions have led to and
a sentence that is built of it without leaving out a token. In document order the sentence has one
token for each accepted mark, in the order of the marks. Every mark covers a range of the source
that begins and ends at the edge of a character; what stands between two marks is the space between
their tokens, and a boundary without characters has a space just if one token there is a tag and the
other a word; the outermost spaces are what is left of the source on either side. Every tag stands
at the number of words before it, and a word is flagged just if, of the tags that follow it before
the next word, some tag has a space on its right. -/
theorem tokens_of_reachable {d : Draft} {s : Sentence} (h : Reachable source d)
    (hbuild : d.build options = .ok s)
    (hkept : options.malformed = .skip →
      ∀ e, .error e ∉ Accepted.tokens source (Mark.accepted d.marks)) :
    Accepted.AreLaidOut source (Mark.accepted d.marks) s.tokens ∧
      (∀ a ∈ Mark.accepted d.marks, a.mark.IsAnchored source) ∧
      (∀ front t back, s.tokens = front ++ .tag t :: back →
        t.position = (front.filterMap Token.word?).length) ∧
      ∀ front w back, s.tokens = front ++ .word w :: back → (w.tagRightSpaceRequired = true ↔
        ∃ t, .tag t ∈ back.takeWhile Token.isTag ∧ t.rightSpace.isSome = true) := by
  simp only [build, h.source_eq] at hbuild
  split at hbuild
  · cases hbuild
  next ts hselect =>
  obtain rfl := Except.ok.inj hbuild
  have hts := MalformedPolicy.select_eq_ok hkept hselect
  have hnumbered := isNumbered_tokens hts
  obtain ⟨left, heq⟩ := Accepted.exists_tokens_eq source (Mark.accepted d.marks)
  refine ⟨?_, fun a ha => ?_, fun front t back htokens => ?_, fun front w back htokens => ?_⟩
  · exact areLaidOut_assemble hts
  · exact h.isWoven.anchored a.mark (Mark.mem_of_mem_accepted ha).1
  · have hrow : Token.IsNumbered 0 (assemble options d.annotations ts).tokens :=
      isNumbered_assemble hnumbered
    rw [htokens] at hrow
    simpa using hrow.position_eq
  · exact flag_assemble hnumbered
      (fun w hw => Accepted.flag_eq_false (heq.symm.trans hts) hw) htokens

theorem tokens_of_reachable_afterTwoSessions :
    Reachable "a<b>&amp; c".toList afterTwoSessions ∧
      (∀ e, .error e ∉
        Accepted.tokens "a<b>&amp; c".toList (Mark.accepted afterTwoSessions.marks)) ∧
      ∃ s, afterTwoSessions.build ⟨.skip, .plain⟩ = .ok s ∧
        Accepted.AreLaidOut "a<b>&amp; c".toList (Mark.accepted afterTwoSessions.marks) s.tokens ∧
        s.words.map Word.tagRightSpaceRequired = [true, false] := by
  have hreach : Reachable "a<b>&amp; c".toList afterTwoSessions := .commit _ (.commit _ .ofText)
  have hkept : ∀ e, .error e ∉
      Accepted.tokens "a<b>&amp; c".toList (Mark.accepted afterTwoSessions.marks) := by
    have hok : (Accepted.tokens "a<b>&amp; c".toList (Mark.accepted afterTwoSessions.marks)).all
        (fun r => r.toOption.isSome) = true := by cbv
    intro e he
    have := List.all_eq_true.mp hok _ he
    simp [Except.toOption] at this
  have hflags : (afterTwoSessions.build ⟨.skip, .plain⟩).toOption.map
      (fun s => s.words.map Word.tagRightSpaceRequired) = some [true, false] := by cbv
  obtain ⟨s, hs, hwords⟩ := Option.map_eq_some_iff.mp hflags
  have hbuild : afterTwoSessions.build ⟨.skip, .plain⟩ = .ok s := by
    cases h : afterTwoSessions.build ⟨.skip, .plain⟩ with
    | ok s' => simpa [h, Except.toOption] using hs
    | error e => simp [h, Except.toOption] at hs
  exact ⟨hreach, hkept, s, hbuild, (tokens_of_reachable hreach hbuild fun _ => hkept).1, hwords⟩

end Draft

end MarkupTransfer
