import MarkupTransfer.Proofs.Projection.Siblings
import MarkupTransfer.Proofs.Projection.Strays
import MarkupTransfer.Tokenize
/-!
# Sequences of a dialect

A dialect gives all tags of one name one type: `<bx/>` begins a sequence and `<ex/>` ends it. As
the two ends of a sequence have different names, they are no pair, and each is carried over as a tag
that stands alone.

* `Dialect.sequences`: the sequences among tags.
* `partner?_eq_none_of_isEnd`: neither end of a sequence has a partner.
* `projectTags_sequences`: the ends of a sequence keep their order where the spans around them do.
-/

namespace MarkupTransfer

open Pairing (ofTags)

/-! ## Retyped tags -/

namespace Dialect

variable {d : Dialect}

@[simp] theorem name_retype (d : Dialect) (t : Tag) : (d.retype t).name = t.name := by
  unfold retype
  split
  · rfl
  · split <;> rfl

/-- Whether tags have the types that a dialect gives them. -/
def IsApplied (d : Dialect) (tags : List Tag) : Prop := ∀ t ∈ tags, d.retype t = t

theorem isApplied_map_retype (d : Dialect) (tags : List Tag) : d.IsApplied (tags.map d.retype) := by
  intro t ht
  obtain ⟨u, -, rfl⟩ := List.mem_map.mp ht
  rw [retype, name_retype]
  unfold retype
  split
  · rfl
  · split <;> rfl

/-- Whether a tag begins or ends a sequence of a dialect. -/
def IsEnd (d : Dialect) (t : Tag) : Prop := t.name ∈ d.openingNames ∨ t.name ∈ d.closingNames

/-- Of two tags of one name that a dialect has retyped, neither closes the other. -/
theorem closes_eq_false_of_isEnd {t u : Tag} (ht : d.retype t = t) (hu : d.retype u = u)
    (hend : d.IsEnd t ∨ d.IsEnd u) : u.closes t = false := by
  rw [Bool.eq_false_iff]
  intro hcloses
  obtain ⟨-, htype, hbegins, hname⟩ := Tag.closes_eq_true_iff.mp hcloses
  have hend : d.IsEnd t := by
    rcases hend with hend | hend
    · exact hend
    · rwa [IsEnd, hname] at hend
  simp only [Tag.begins, Bool.and_eq_true, beq_iff_eq] at hbegins
  rw [retype] at ht hu
  rw [hname] at hu
  by_cases hclosing : t.name ∈ d.closingNames
  · have hclosed := congrArg Tag.type ht
    rw [if_pos (List.contains_iff_mem.mpr hclosing)] at hclosed
    simp [← hclosed] at hbegins
  · have hopened := congrArg Tag.type hu
    rw [if_neg (by simpa using hclosing),
      if_pos (List.contains_iff_mem.mpr (hend.resolve_right hclosing))] at hopened
    simp [← hopened] at htype

end Dialect

/-- **Neither end of a sequence has a partner.** -/
theorem partner?_eq_none_of_isEnd {d : Dialect} {tags : List Tag} (h : d.IsApplied tags) {i : Nat}
    {t : Tag} (ht : (ofTags tags).tags[i]? = some t) (hend : d.IsEnd t) :
    (ofTags tags).partner? i = none := by
  have happlied : ∀ k u, (ofTags tags).tags[k]? = some u → d.retype u = u := fun k u hu =>
    h u ((Sentence.sortTags_perm tags).mem_iff.mp (List.mem_of_getElem? hu))
  refine (Pairing.partner?_eq_none_iff tags i).mpr fun j => ⟨fun hpair => ?_, fun hpair => ?_⟩
  · obtain ⟨t', u, ht', hu, hcloses⟩ := Pairing.closes_of_mem_pairs hpair
    obtain rfl : t = t' := Option.some.inj (ht.symm.trans ht')
    simp [Dialect.closes_eq_false_of_isEnd (happlied i t ht) (happlied j u hu) (.inl hend)]
      at hcloses
  · obtain ⟨u, t', hu, ht', hcloses⟩ := Pairing.closes_of_mem_pairs hpair
    obtain rfl : t = t' := Option.some.inj (ht.symm.trans ht')
    simp [Dialect.closes_eq_false_of_isEnd (happlied j u hu) (happlied i t ht) (.inr hend)]
      at hcloses

/-! ## Sequences -/

namespace Dialect

/-- A tag as an end of a sequence: all tags that begin or end one go by one name, and any other tag
stands alone. -/
def asEnd (d : Dialect) (t : Tag) : Tag :=
  if d.closingNames.contains t.name then { t with name := [], type := .closing }
  else if d.openingNames.contains t.name then { t with name := [], type := .opening }
  else { t with type := .empty }

/-- The sequences among tags, each by the index of its two ends: a tag that ends a sequence ends the
nearest one that is still open. -/
def sequences (d : Dialect) (tags : List Tag) : List (Nat × Nat) :=
  Pairing.pairsFrom 0 [] (tags.map d.asEnd)

variable {d : Dialect} {tags : List Tag} {i j : Nat}

theorem lt_of_mem_sequences (h : (i, j) ∈ d.sequences tags) : i < j ∧ j < tags.length := by
  obtain ⟨-, hcount, hlt, -⟩ := Pairing.pairsFrom_bounds (.nil 0) _ h
  exact ⟨hlt, by simpa using hcount⟩

/-- What begins and ends a sequence. -/
theorem isEnd_of_mem_sequences (h : (i, j) ∈ d.sequences tags) :
    ∃ t u, tags[i]? = some t ∧ tags[j]? = some u ∧ t.name ∈ d.openingNames ∧
      u.name ∈ d.closingNames := by
  obtain ⟨t', u', ht', hu', hcloses⟩ :=
    @Pairing.pairsFrom_closes 0 [] [] (tags.map d.asEnd) rfl (by simp) (i, j) h
  simp only [List.nil_append, List.getElem?_map, Option.map_eq_some_iff] at ht' hu'
  obtain ⟨t, ht, rfl⟩ := ht'
  obtain ⟨u, hu, rfl⟩ := hu'
  obtain ⟨-, htype, hbegins, -⟩ := Tag.closes_eq_true_iff.mp hcloses
  simp only [Tag.begins, Bool.and_eq_true, beq_iff_eq] at hbegins
  refine ⟨t, u, ht, hu, ?_, ?_⟩
  · have hopening := hbegins.1
    unfold asEnd at hopening
    split at hopening
    · cases hopening
    · split at hopening
      · next hmem => exact List.contains_iff_mem.mp hmem
      · cases hopening
  · unfold asEnd at htype
    split at htype
    · next hmem => exact List.contains_iff_mem.mp hmem
    · split at htype <;> cases htype

end Dialect

/-! ## Sentences of a dialect -/

/-- Whether a policy applies a dialect to the tags of a sentence: it forces the dialect, or detects
it in tags that comply with it. -/
def DialectPolicy.Applies (p : DialectPolicy) (d : Dialect) (tags : List Tag) : Prop :=
  p = .force d ∨ p = .detect ∧ d.isCompliant tags = true

theorem tags_of_tokenizeWith {options : Options} {passes : List Pass} {text : Text}
    {s : Sentence} (h : tokenizeWith options passes text = .ok s) :
    ∃ tags, s.tags = Sentence.sortTags (options.dialect.retype tags) := by
  rw [tokenizeWith] at h
  split at h
  · rw [Draft.build] at h
    split at h
    · cases h
    · split at h
      · cases h
      · next tokens _ =>
        obtain rfl := Except.ok.inj h
        exact ⟨tokens.filterMap Token.tag?, rfl⟩
  · cases h

/-- Tags that comply with the dialect are retyped once it is looked for. -/
theorem isApplied_retype_detect {tags : List Tag}
    (h : Dialect.xliff.isCompliant (DialectPolicy.detect.retype tags) = true) :
    Dialect.xliff.IsApplied (DialectPolicy.detect.retype tags) := by
  cases hempty : tags.isEmpty with
  | true =>
    obtain rfl := List.isEmpty_iff.mp hempty
    exact nofun
  | false =>
    have hretype : DialectPolicy.detect.retype tags =
        if Dialect.xliff.isCompliant tags then tags.map Dialect.xliff.retype else tags := by
      rw [DialectPolicy.retype, DialectPolicy.dialect?, hempty]
      cases hcompliant : Dialect.xliff.isCompliant tags <;>
        simp [Dialect.detect?, Dialect.all, hcompliant]
    rw [hretype] at h ⊢
    split
    · exact Dialect.isApplied_map_retype _ tags
    · next hcompliant =>
      rw [if_neg hcompliant] at h
      exact absurd h hcompliant

/-- A sentence tokenized with a dialect applied has tags of the types that the dialect gives. -/
theorem isApplied_of_tokenizeWith {options : Options} {passes : List Pass} {text : Text}
    {s : Sentence} (h : tokenizeWith options passes text = .ok s)
    (hdialect : options.dialect.Applies .xliff s.tags) : Dialect.xliff.IsApplied s.tags := by
  obtain ⟨tags, htags⟩ := tags_of_tokenizeWith h
  have hperm : s.tags.Perm (options.dialect.retype tags) := htags ▸ Sentence.sortTags_perm _
  have happlied : Dialect.xliff.IsApplied (options.dialect.retype tags) := by
    rcases hdialect with hforce | ⟨hdetect, hcompliant⟩
    · rw [hforce]
      exact Dialect.isApplied_map_retype .xliff tags
    · rw [hdetect] at hperm ⊢
      refine isApplied_retype_detect ?_
      rwa [Dialect.isCompliant, ← hperm.all_eq]
  exact fun t ht => happlied t (hperm.subset ht)

namespace Translation

variable {t : Translation} {source : Sentence}

/-- **The ends of a sequence are carried over one by one.** In a sentence tokenized with a dialect
applied neither end has a partner. The one that begins the sequence stays in front of the one that
ends it if no span with the first alone, itself included, comes to start behind a span with the
second alone; for a pair of tags no such condition is needed. -/
theorem projectTags_sequences (policy : UnalignedPolicy) {options : Options} {passes : List Pass}
    {text : Text} (htokenize : tokenizeWith options passes text = .ok source)
    (hdialect : options.dialect.Applies .xliff source.tags) (hsource : t.source = some source)
    (hwords : source.words ≠ []) (htags : source.tags ≠ []) (halign : t.alignment.toList ≠ [])
    (hrange : ∀ p ∈ t.alignment.toList,
      p.1 < source.words.length ∧ p.2 < t.sentence.words.length) :
    ∃ reach t' order,
      Reach.ofAlignment t.alignment source.words.length t.sentence.words.length = .ok reach ∧
      t.projectTags policy = .ok t' ∧
      IsCarried (ofTags source.tags).tags t'.sentence.tags order ∧
      ∀ i j, (i, j) ∈ Dialect.xliff.sequences (ofTags source.tags).tags →
        (ofTags source.tags).partner? i = none ∧ (ofTags source.tags).partner? j = none ∧
        ((∀ u ∈ (ofTags source.tags).spans source.words.length,
            ∀ v ∈ (ofTags source.tags).spans source.words.length,
              u.Holds i → ¬ u.Holds j → v.Holds j → ¬ v.Holds i →
                (reach.span policy u).1 ≤ (reach.span policy v).1) →
          [i, j].Sublist order) := by
  obtain ⟨reach, t', hreach, hok, hcarried, -, -, -⟩ :=
    exists_projected policy hsource hwords htags halign hrange
  have happlied := isApplied_of_tokenizeWith htokenize hdialect
  refine ⟨reach, t', _, hreach, hok, hcarried, fun i j hij => ?_⟩
  obtain ⟨hlt, hcount⟩ := Dialect.lt_of_mem_sequences hij
  obtain ⟨u, v, hu, hv, hopening, hclosing⟩ := Dialect.isEnd_of_mem_sequences hij
  exact ⟨partner?_eq_none_of_isEnd happlied hu (.inl hopening),
    partner?_eq_none_of_isEnd happlied hv (.inr hclosing), pair_sublist_projectedRow hlt hcount⟩

/-- A word inside a sequence and one behind it. -/
def sequenceText : Text := "<bx/>a<ex/> b".toList

/-- The sentence of the text, tokenized with the dialect. -/
def sequenceSource : Sentence where
  words := [⟨some ['a'], ['a'], some .virtual, some .virtual, true, true, true⟩,
    ⟨some ['b'], ['b'], some (.literal [' ']), none, true, false, false⟩]
  tags := [⟨.xml, ['b', 'x'], "<bx/>".toList, none, some .virtual, 0, .opening, false⟩,
    ⟨.xml, ['e', 'x'], "<ex/>".toList, some .virtual, some (.literal [' ']), 1, .closing, false⟩]
  spaceConsistent := false
  annotations := .empty

/-- Its two words, translated by two words. -/
def sequenceTranslation (points : List (Nat × Nat)) : Translation :=
  .ofWords [.ofText none ['x'] none none, .ofText none ['y'] none none] sequenceSource
    (.ofPairs points)

theorem tokenizeWith_sequenceText :
    tokenizeWith ⟨.abort, .force .xliff⟩ Pass.standard sequenceText = .ok sequenceSource := by
  cbv

theorem projectTags_sequences_sequenceText :
    tokenizeWith ⟨.abort, .force .xliff⟩ Pass.standard sequenceText = .ok sequenceSource ∧
      (DialectPolicy.force .xliff).Applies .xliff sequenceSource.tags ∧
      (sequenceTranslation [(0, 0), (1, 1)]).source = some sequenceSource ∧
      sequenceSource.words ≠ [] ∧ sequenceSource.tags ≠ [] ∧
      (sequenceTranslation [(0, 0), (1, 1)]).alignment.toList ≠ [] ∧
      (∀ p ∈ (sequenceTranslation [(0, 0), (1, 1)]).alignment.toList,
        p.1 < sequenceSource.words.length ∧
          p.2 < (sequenceTranslation [(0, 0), (1, 1)]).sentence.words.length) ∧
      ∃ t' order, (sequenceTranslation [(0, 0), (1, 1)]).projectTags .nearest = .ok t' ∧
        IsCarried (ofTags sequenceSource.tags).tags t'.sentence.tags order ∧
        [0, 1].Sublist order := by
  have hpairing : ofTags sequenceSource.tags = ⟨sequenceSource.tags, []⟩ := by
    rw [ofTags, Sentence.sortTags_eq_self (by decide)]
    rfl
  have hrange : ∀ p ∈ (sequenceTranslation [(0, 0), (1, 1)]).alignment.toList,
      p.1 < sequenceSource.words.length ∧
        p.2 < (sequenceTranslation [(0, 0), (1, 1)]).sentence.words.length := by
    decide
  refine ⟨tokenizeWith_sequenceText, .inl rfl, rfl, by decide, by decide, by decide, hrange, ?_⟩
  obtain ⟨reach, t', order, hreach, hok, hcarried, hsequences⟩ :=
    projectTags_sequences .nearest (t := sequenceTranslation [(0, 0), (1, 1)])
      tokenizeWith_sequenceText (.inl rfl) rfl (by decide) (by decide) (by decide) hrange
  have hwords : Reach.ofAlignment (sequenceTranslation [(0, 0), (1, 1)]).alignment
      sequenceSource.words.length
      (sequenceTranslation [(0, 0), (1, 1)]).sentence.words.length =
        .ok ⟨[some (0, 0), some (1, 1)], 2⟩ := by
    decide
  obtain rfl := Except.ok.inj (hwords.symm.trans hreach)
  refine ⟨t', order, hok, hcarried, (hsequences 0 1 ?_).2.2 ?_⟩
  · rw [hpairing]
    decide
  · rw [hpairing]
    decide

/-- The end of a sequence that is carried in front of its beginning. -/
theorem projectTags_parts_sequence :
    tokenizeWith ⟨.abort, .force .xliff⟩ Pass.standard sequenceText = .ok sequenceSource ∧
      Dialect.xliff.sequences sequenceSource.tags = [(0, 1)] ∧
      sequenceSource.tags.map Tag.text = ["<bx/>".toList, "<ex/>".toList] ∧
      ((sequenceTranslation [(0, 1), (1, 0)]).projectTags .nearest).map
        (fun t => t.sentence.tags.map Tag.text) = .ok ["<ex/>".toList, "<bx/>".toList] :=
  ⟨tokenizeWith_sequenceText, by decide, rfl, by cbv⟩

end Translation

end MarkupTransfer
