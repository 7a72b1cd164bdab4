import MarkupTransfer.Proofs.Draft.Tokens
import MarkupTransfer.Proofs.Sentence.Showing
import MarkupTransfer.Proofs.Tokenize.KeptTags
/-!
# The neighbours in a fresh sentence

The space between two tokens of a text is worked out once and given to both of them, so neighbours
agree about it before any space has been settled. They have one without characters just where a word
and a tag touch, and words are flagged in front of tags only.

* `Accepted.Faces.adjoins`: what marks that face each other say of their tokens.
* `Sentence.IsFresh`: what holds of a sentence whose spaces have not been settled yet.
* `Draft.isFresh_assemble`, `isFresh_of_tokenize`: sentences made of texts are fresh.
-/

namespace MarkupTransfer

open Token (Adjoins)

/-! ## Rows of tokens -/

namespace Accepted

variable {source : Text} {as : List Accepted} {ts : List Token} {p q : Accepted × Token}

theorem Faces.adjoins (h : Faces source p q)
    (hflagged : p.2.isFlagged = true → q.2.isTag = true) : Adjoins p.2 q.2 where
  agree := h.agree
  none hnone := by
    by_cases hgap : p.1.mark.stop < q.1.mark.start
    · cases (h.literal hgap).symm.trans hnone
    · by_contra hcls
      have hmixed : p.2.isTag ≠ q.2.isTag := by
        simpa only [ne_eq, Token.isTag_eq_isTag_iff] using hcls
      cases (h.virtual hgap hmixed).symm.trans hnone
  virtual hvirtual hcls := by
    by_cases hgap : p.1.mark.stop < q.1.mark.start
    · cases (h.literal hgap).symm.trans hvirtual
    · cases (h.none hgap (Token.isTag_eq_isTag_iff.mpr hcls)).symm.trans hvirtual
  flagged hflag := by simpa [Token.isTag] using hflagged hflag

/-- **Tokens that are laid out as their marks agree with their neighbours**, if words are flagged in
front of tags only. -/
theorem AreLaidOut.isChain (h : AreLaidOut source as ts)
    (hflagged : ∀ front x y back, ts = front ++ x :: y :: back →
      x.isFlagged = true → y.isTag = true) : ts.IsChain Adjoins := by
  refine List.isChain_iff_forall_rel_of_append_cons_cons.mpr fun x y front back hts => ?_
  obtain ⟨before, behind, hzip, -, hbehind⟩ := List.map_eq_append_iff.mp (h.map_snd_zip.trans hts)
  obtain ⟨p, behind, rfl, rfl, hnext⟩ := List.map_eq_cons_iff.mp hbehind
  obtain ⟨q, behind, rfl, rfl, -⟩ := List.map_eq_cons_iff.mp hnext
  have hfaces : Faces source p q :=
    List.isChain_iff_forall_rel_of_append_cons_cons.mp h.facing hzip
  exact hfaces.adjoins (hflagged _ _ _ _ hts)

/-- The space behind the last token has characters. -/
theorem AreLaidOut.last_ne_virtual (h : AreLaidOut source as ts) :
    ∀ y ∈ ts.getLast?, y.rightSpace ≠ some .virtual := by
  intro y hy
  rw [← h.map_snd_zip, List.getLast?_map] at hy
  obtain ⟨p, hp, rfl⟩ := Option.map_eq_some_iff.mp hy
  rw [h.last p hp]
  split <;> simp

end Accepted

/-! ## Sentences -/

/-- A sentence whose spaces have not been settled yet, as texts are made into: its tokens agree with
their neighbours all the same. -/
structure Sentence.IsFresh (s : Sentence) : Prop where
  numbered : Token.IsNumbered 0 s.tokens
  neighbours : s.tokens.IsChain Adjoins
  last : ∀ y ∈ s.tokens.getLast?, y.rightSpace ≠ some .virtual
  unsettled : s.spaceConsistent = false

namespace Draft

/-- **A sentence that is built of the tokens of accepted marks is fresh.** -/
theorem isFresh_assemble {source : Text} {options : Options} {annotations : Annotations}
    {as : List Accepted} {ts : List Token} (h : Accepted.tokens source as = ts.map .ok) :
    (assemble options annotations ts).IsFresh := by
  obtain ⟨left, hleft⟩ := Accepted.exists_tokens_eq source as
  have hnumbered : Token.IsNumbered 0 ts := isNumbered_tokens h
  have hlaid : Accepted.AreLaidOut source as (assemble options annotations ts).tokens :=
    areLaidOut_assemble h
  refine ⟨isNumbered_assemble hnumbered, hlaid.isChain fun front x y back htokens hflag => ?_,
    hlaid.last_ne_virtual, rfl⟩
  cases x with
  | tag t => cases hflag
  | word w =>
    obtain ⟨t, ht, -⟩ := (flag_assemble hnumbered
      (fun _ hw => Accepted.flag_eq_false (hleft.symm.trans h) hw) htokens).mp hflag
    cases y with
    | tag u => rfl
    | word v => cases ht

end Draft

/-- **The sentence that a text becomes is fresh.** -/
theorem isFresh_of_tokenize {t : Text} {s : Sentence} (h : tokenize t = .ok s) : s.IsFresh := by
  obtain ⟨d, groups, hrun, hread⟩ := Draft.exists_isRead t
  have hbuild : d.build .standard = .ok s := by rwa [tokenize, tokenizeWith, hrun] at h
  obtain ⟨ts, hts, rfl⟩ := Draft.build_eq_ok hread.source_eq rfl hbuild
  exact Draft.isFresh_assemble hts

/-- A fresh sentence is shown as its tokens are, with the literal spaces at its two ends. -/
theorem Sentence.IsFresh.markup_eq {s : Sentence} (h : s.IsFresh) (placeholders : Bool) :
    s.markup placeholders = frontSpace s.tokens ++ core placeholders s.tokens ++
      backSpace s.tokens := by
  rw [markup, h.unsettled, markupOf_eq_core]

end MarkupTransfer
