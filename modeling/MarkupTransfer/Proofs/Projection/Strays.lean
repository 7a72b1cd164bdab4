import Mathlib
import MarkupTransfer.Proofs.Projection.Balance
import MarkupTransfer.Proofs.Projection.Matching
/-!
# Stray tags stay stray

A tag without a partner is carried over on its own, so two of them may change their order, and a
closing tag that comes to stand behind an opening tag of its name closes it. Nothing else makes a
pair of tags that were none.

* `isMatching_ofTags`: what makes the pairs of tags in their own order.
* `projectTags_keeps_strays`: stray tags stay stray if and only if none of them meet.
-/

namespace MarkupTransfer

namespace Pairing

/-- Whether the tag with one index could close the tag with another one. -/
def Closes (p : Pairing) (c o : Nat) : Prop :=
  ∃ t u, p.tags[o]? = some t ∧ p.tags[c]? = some u ∧ u.closes t = true

/-- Whether two tags are a pair. -/
def Pairs (p : Pairing) (o c : Nat) : Prop := (o, c) ∈ p.pairs

/-- A tag that closes another one begins nothing. -/
theorem Closes.not_closes {p : Pairing} {x y z : Nat} (h : p.Closes y x) : ¬ p.Closes z y := by
  obtain ⟨s, u, -, hu, hcloses⟩ := h
  rintro ⟨t, v, ht, -, hcloses'⟩
  obtain rfl : u = t := Option.some.inj (hu.symm.trans ht)
  have hbegins := (Tag.closes_eq_true_iff.mp hcloses').2.2.1
  simp [Tag.begins_eq_false_of_closes hcloses] at hbegins

/-- Whether a tag closes another one depends on nothing but what the two are. -/
theorem Closes.of_bare {p q : Pairing} {c o c' o' : Nat} (h : p.Closes c o)
    (ho : p.tags[o]?.map Tag.bare = q.tags[o']?.map Tag.bare)
    (hc : p.tags[c]?.map Tag.bare = q.tags[c']?.map Tag.bare) : q.Closes c' o' := by
  obtain ⟨t, u, ht, hu, hcloses⟩ := h
  rw [ht] at ho
  rw [hu] at hc
  obtain ⟨t', ht', hbaret⟩ := Option.map_eq_some_iff.mp ho.symm
  obtain ⟨u', hu', hbareu⟩ := Option.map_eq_some_iff.mp hc.symm
  refine ⟨t', u', ht', hu', ?_⟩
  have hcloses' : u.bare.closes t.bare = true := hcloses
  rw [← hbaret, ← hbareu] at hcloses'
  exact hcloses'

/-- **What makes the pairs of tags**, met in the order of their indices. -/
theorem isMatching_ofTags (tags : List Tag) :
    IsMatching id (ofTags tags).Closes (ofTags tags).Pairs where
  closes_of_pair := closes_of_mem_pairs
  lt_of_pair hpair := ((ofTags_areNested tags).bounds _ hpair).1
  closing_unique hpair hpair' :=
    congrArg Prod.snd ((ofTags_areNested tags).eq_of_opening hpair hpair' rfl)
  opening_unique hpair hpair' :=
    congrArg Prod.fst ((ofTags_areNested tags).eq_of_closing hpair hpair' rfl)
  lt_of_inside hpair hpair' ho hc := (ofTags_areNested tags).closing_lt hpair hpair' ho hc
  nearest := by
    rintro x y hlt ⟨t, u, ht, hu, hcloses⟩
    obtain ⟨⟨o, c⟩, hpair, hcases⟩ :=
      exists_pair_of_closes (IsStack.nil 0) ht hu hlt hcloses
    refine ⟨o, c, hpair, ?_⟩
    simp only [id] at hlt ⊢
    simp only [Nat.zero_add] at hcases
    omega

theorem partner?_eq_none_iff (tags : List Tag) (i : Nat) : (ofTags tags).partner? i = none ↔
    ∀ j, ¬ (ofTags tags).Pairs i j ∧ ¬ (ofTags tags).Pairs j i := by
  rw [← Option.not_isSome_iff_eq_none, isSome_partner?_iff (ofTags_areNested tags)]
  constructor
  · intro h j
    exact ⟨fun hpair => h ⟨_, hpair, .inl rfl⟩, fun hpair => h ⟨_, hpair, .inr rfl⟩⟩
  · rintro h ⟨⟨o, c⟩, hpair, rfl | rfl⟩
    · exact (h c).1 hpair
    · exact (h o).2 hpair

end Pairing

open Pairing (ofTags)

/-- Pairs by other names of their tags, where each name is used once. -/
theorem IsMatching.comap {place : Nat → Nat} {closes found closes' found' : Nat → Nat → Prop}
    (h : IsMatching id closes' found') (hcloses : ∀ c o, closes c o ↔ closes' (place c) (place o))
    (hfound : ∀ o c, found o c ↔ found' (place o) (place c))
    (hplace : ∀ i j, found' i j → (∃ x, place x = i ∧ ∀ y, place y = i → y = x) ∧
      ∃ x, place x = j ∧ ∀ y, place y = j → y = x) :
    IsMatching place closes found where
  closes_of_pair hpair := (hcloses _ _).mpr (h.closes_of_pair ((hfound _ _).mp hpair))
  lt_of_pair hpair := h.lt_of_pair ((hfound _ _).mp hpair)
  closing_unique {o c c'} hpair hpair' := by
    have hplaces := h.closing_unique ((hfound _ _).mp hpair) ((hfound _ _).mp hpair')
    obtain ⟨x, -, hx⟩ := (hplace _ _ ((hfound _ _).mp hpair)).2
    rw [hx c rfl, hx c' hplaces.symm]
  opening_unique {o o' c} hpair hpair' := by
    have hplaces := h.opening_unique ((hfound _ _).mp hpair) ((hfound _ _).mp hpair')
    obtain ⟨x, -, hx⟩ := (hplace _ _ ((hfound _ _).mp hpair)).1
    rw [hx o rfl, hx o' hplaces.symm]
  lt_of_inside hpair hpair' := h.lt_of_inside ((hfound _ _).mp hpair) ((hfound _ _).mp hpair')
  nearest {x y} hlt hxy := by
    obtain ⟨i, j, hpair, hcases⟩ := h.nearest hlt ((hcloses _ _).mp hxy)
    obtain ⟨⟨o, rfl, ho⟩, ⟨c, rfl, hc⟩⟩ := hplace i j hpair
    refine ⟨o, c, (hfound _ _).mpr hpair, ?_⟩
    rcases hcases with ⟨ho', hxc, hcy⟩ | ⟨ho', hcy⟩
    · exact .inl ⟨ho'.imp_left fun heq => (ho x heq.symm).symm, hxc, hcy⟩
    · exact .inr ⟨ho'.imp_left fun heq => (ho x heq.symm).symm, (hc y hcy.symm).symm⟩

namespace IsCarried

variable {source tags : List Tag} {order : List Nat}

theorem nodup (h : IsCarried source tags order) : order.Nodup :=
  h.perm.nodup_iff.mpr List.nodup_range

theorem length_eq (h : IsCarried source tags order) : order.length = tags.length := by
  have := congrArg List.length h.same
  simpa using this.symm

/-- The tag that stands where a tag has come to is the same tag. -/
theorem bare_idxOf (h : IsCarried source tags order) (x : Nat) :
    tags[order.idxOf x]?.map Tag.bare = source[x]?.map Tag.bare := by
  by_cases hx : x ∈ order
  · have hlt := List.idxOf_lt_length_iff.mpr hx
    have heq := congrArg (·[order.idxOf x]?) h.same
    simp only [List.getElem?_map, List.getElem?_eq_getElem hlt, List.getElem_idxOf] at heq
    cases ht : tags[order.idxOf x]? with
    | none => simp [ht] at heq
    | some t => simpa [ht] using heq
  · have hout : ¬ x < source.length := fun hlt => hx (h.perm.mem_iff.mpr (List.mem_range.mpr hlt))
    have hidx : order.idxOf x = tags.length := by
      rw [List.idxOf_eq_length hx, h.length_eq]
    simp [hidx, List.getElem?_eq_none (Nat.not_lt.mp hout)]

/-- Only one tag comes to a place. -/
theorem idxOf_unique (h : IsCarried source tags order) {i : Nat} (hi : i < tags.length) :
    ∃ x, order.idxOf x = i ∧ ∀ y, order.idxOf y = i → y = x := by
  have hlt : i < order.length := by rwa [h.length_eq]
  refine ⟨order[i], h.nodup.idxOf_getElem i hlt, fun y hy => ?_⟩
  subst hy
  exact (List.getElem_idxOf hlt).symm

/-- Tags do the same to each other wherever they have come to. -/
theorem closes_iff (h : IsCarried (ofTags source).tags (ofTags tags).tags order) (c o : Nat) :
    (ofTags source).Closes c o ↔ (ofTags tags).Closes (order.idxOf c) (order.idxOf o) :=
  ⟨fun hcloses => hcloses.of_bare (h.bare_idxOf o).symm (h.bare_idxOf c).symm,
    fun hcloses => hcloses.of_bare (h.bare_idxOf o) (h.bare_idxOf c)⟩

/-- The pairs among tags that come in another order, by the names they had. -/
theorem isMatching (h : IsCarried (ofTags source).tags (ofTags tags).tags order) :
    IsMatching order.idxOf (ofTags source).Closes
      fun o c => (ofTags tags).Pairs (order.idxOf o) (order.idxOf c) :=
  (Pairing.isMatching_ofTags tags).comap h.closes_iff (fun _ _ => .rfl) fun i j hpair => by
    obtain ⟨hlt, hcount⟩ := (Pairing.ofTags_areNested tags).bounds _ hpair
    exact ⟨h.idxOf_unique (Nat.lt_trans hlt hcount), h.idxOf_unique hcount⟩

/-- A tag is left without a partner if no tag, by the name it had, is paired with it. -/
theorem partner?_idxOf_eq_none_iff (h : IsCarried (ofTags source).tags (ofTags tags).tags order)
    (x : Nat) : (ofTags tags).partner? (order.idxOf x) = none ↔
      ∀ z, ¬ (ofTags tags).Pairs (order.idxOf x) (order.idxOf z) ∧
        ¬ (ofTags tags).Pairs (order.idxOf z) (order.idxOf x) := by
  rw [Pairing.partner?_eq_none_iff]
  refine ⟨fun hfree z => hfree _, fun hfree i => ⟨fun hpair => ?_, fun hpair => ?_⟩⟩
  · obtain ⟨-, hcount⟩ := (Pairing.ofTags_areNested tags).bounds _ hpair
    obtain ⟨z, rfl, -⟩ := h.idxOf_unique hcount
    exact (hfree z).1 hpair
  · obtain ⟨hlt, hcount⟩ := (Pairing.ofTags_areNested tags).bounds _ hpair
    obtain ⟨z, rfl, -⟩ := h.idxOf_unique (Nat.lt_trans hlt hcount)
    exact (hfree z).2 hpair

end IsCarried

/-! ## Places in a row -/

theorem idxOf_eq_length {before after : List Nat} {x : Nat} (h : (before ++ x :: after).Nodup) :
    (before ++ x :: after).idxOf x = before.length := by
  have hlt : before.length < (before ++ x :: after).length := by simp
  simpa using h.idxOf_getElem _ hlt

theorem mem_iff_idxOf_between {before inside after : List Nat} {o c : Nat}
    (h : (before ++ o :: (inside ++ c :: after)).Nodup) (x : Nat) :
    x ∈ inside ↔ before.length < (before ++ o :: (inside ++ c :: after)).idxOf x ∧
      (before ++ o :: (inside ++ c :: after)).idxOf x < before.length + inside.length + 1 := by
  obtain ⟨-, hrow, hbefore⟩ := List.nodup_append.mp h
  obtain ⟨ho, -⟩ := List.nodup_cons.mp hrow
  rw [List.idxOf_append]
  split
  · next hx =>
    have hlt := List.idxOf_lt_length_iff.mpr hx
    have hout : x ∉ inside := fun hin => hbefore x hx x (by simp [hin]) rfl
    simp only [hout, false_iff]
    omega
  · rw [List.idxOf_cons]
    by_cases hxo : o = x
    · subst hxo
      have hout : o ∉ inside := fun hin => ho (by simp [hin])
      simp [hout]
    · have hbeq : (o == x) = false := by simpa using hxo
      rw [hbeq, cond_false, List.idxOf_append]
      split
      · next hx =>
        have hlt := List.idxOf_lt_length_iff.mpr hx
        simp only [hx, true_iff]
        omega
      · next hx =>
        simp only [hx, false_iff]
        omega

/-- An order that has between the tags of each pair what stood between them keeps the pairs. -/
theorem keepsPairs_of_between {order : List Nat} {pairs : Nat → Nat → Prop} (hnodup : order.Nodup)
    (h : ∀ o c, pairs o c → ∃ before inside after,
      order = before ++ o :: (inside ++ c :: after) ∧ ∀ i, i ∈ inside ↔ o < i ∧ i < c) :
    KeepsPairs order.idxOf pairs := by
  have hplaces : ∀ {o c}, pairs o c → order.idxOf o < order.idxOf c ∧ c ∈ order ∧
      ∀ x, order.idxOf o < order.idxOf x ∧ order.idxOf x < order.idxOf c ↔ o < x ∧ x < c := by
    intro o c hpair
    obtain ⟨before, inside, after, horder, hinside⟩ := h o c hpair
    have hfront : order = (before ++ o :: inside) ++ c :: after := by simp [horder]
    have ho : order.idxOf o = before.length := by
      rw [horder] at hnodup ⊢
      exact idxOf_eq_length hnodup
    have hc : order.idxOf c = before.length + inside.length + 1 := by
      rw [hfront] at hnodup ⊢
      rw [idxOf_eq_length hnodup, List.length_append, List.length_cons, Nat.add_assoc]
    refine ⟨by omega, by simp [horder], fun x => ?_⟩
    rw [← hinside x, ho, hc]
    rw [horder] at hnodup ⊢
    exact (mem_iff_idxOf_between hnodup x).symm
  exact ⟨fun hpair => (hplaces hpair).1,
    fun hpair heq => ((List.idxOf_inj (hplaces hpair).2.1).mp heq.symm).symm,
    fun {o c x} hpair => (hplaces hpair).2.2 x⟩

namespace Translation

variable {t : Translation} {source : Sentence}

/-- **Stray tags stay stray if and only if none of them meet**: no stray closing tag comes to stand
behind a stray opening tag of its name that it stood in front of. -/
theorem projectTags_keeps_strays (policy : UnalignedPolicy) (hsource : t.source = some source)
    (hwords : source.words ≠ []) (htags : source.tags ≠ []) (halign : t.alignment.toList ≠ [])
    (hrange : ∀ p ∈ t.alignment.toList,
      p.1 < source.words.length ∧ p.2 < t.sentence.words.length) :
    ∃ t' order, t.projectTags policy = .ok t' ∧
      IsCarried (ofTags source.tags).tags (ofTags t'.sentence.tags).tags order ∧
      ((∀ x, (ofTags source.tags).partner? x = none →
          (ofTags t'.sentence.tags).partner? (order.idxOf x) = none) ↔
        ∀ x y, MayMeet (ofTags source.tags).Closes (ofTags source.tags).Pairs x y →
          ¬ order.idxOf x < order.idxOf y) := by
  obtain ⟨t', row, hok, hrearranged, hcarried, hspread, -⟩ :=
    exists_carried policy hsource hwords (fun h => absurd h htags) halign hrange
  have hsorted : (ofTags t'.sentence.tags).tags = t'.sentence.tags :=
    Sentence.sortTags_eq_self hspread.ascending
  rw [← hsorted] at hcarried
  refine ⟨t', row.indices, hok, hcarried, ?_⟩
  have hkeeps : KeepsPairs row.indices.idxOf (ofTags source.tags).Pairs :=
    keepsPairs_of_between hcarried.nodup fun o c hpair => by
      obtain ⟨before, inside, after, horder, hinside, -⟩ := exists_between hrearranged hpair
      exact ⟨before, inside, after, horder, hinside⟩
  simp only [hcarried.partner?_idxOf_eq_none_iff, Pairing.partner?_eq_none_iff]
  exact (Pairing.isMatching_ofTags source.tags).strays_iff hkeeps hcarried.isMatching
    fun hcloses => hcloses.not_closes

/-- A closing tag in front of a word and an opening tag behind it. -/
def strayTags (closed opened : Text) : List Tag :=
  [⟨.xml, closed, ("</".toList ++ closed) ++ ['>'], none, none, 0, .closing, false⟩,
    ⟨.xml, opened, ('<' :: opened) ++ ['>'], none, none, 1, .opening, false⟩]

/-- Two words with stray tags, translated in reverse. -/
def strayTranslation (closed opened : Text) : Translation :=
  let words : List Word := [.ofText none ['a'] none none, .ofText none ['b'] none none]
  .ofWords words (.ofTokens words (strayTags closed opened)) (.ofPairs [(0, 1), (1, 0)])

theorem projectTags_keeps_strays_strayTranslation :
    ∃ source, (strayTranslation ['p'] ['q']).source = some source ∧ source.words ≠ [] ∧
      source.tags ≠ [] ∧ (strayTranslation ['p'] ['q']).alignment.toList ≠ [] ∧
      (∀ p ∈ (strayTranslation ['p'] ['q']).alignment.toList, p.1 < source.words.length ∧
        p.2 < (strayTranslation ['p'] ['q']).sentence.words.length) ∧
      ∃ t' order, (strayTranslation ['p'] ['q']).projectTags .nearest = .ok t' ∧
        IsCarried (ofTags source.tags).tags (ofTags t'.sentence.tags).tags order ∧
        (ofTags t'.sentence.tags).partner? (order.idxOf 0) = none ∧
        (ofTags t'.sentence.tags).partner? (order.idxOf 1) = none := by
  have hsorted : Sentence.sortTags (strayTags ['p'] ['q']) = strayTags ['p'] ['q'] :=
    Sentence.sortTags_eq_self (by decide)
  have hpairing : ofTags (Sentence.sortTags (strayTags ['p'] ['q'])) =
      ⟨strayTags ['p'] ['q'], []⟩ := by
    rw [ofTags, hsorted, hsorted]
    rfl
  have htags : Sentence.sortTags (strayTags ['p'] ['q']) ≠ [] := by
    rw [hsorted]
    decide
  refine ⟨_, rfl, by decide, htags, by decide, by decide, ?_⟩
  obtain ⟨t', order, hok, hcarried, hiff⟩ := projectTags_keeps_strays .nearest
    (t := strayTranslation ['p'] ['q']) rfl (by decide) htags (by decide) (by decide)
  refine ⟨t', order, hok, hcarried, ?_⟩
  have hapart : ∀ t ∈ strayTags ['p'] ['q'], ∀ u ∈ strayTags ['p'] ['q'], u.closes t = false := by
    decide
  have hstray := hiff.mpr fun x y hmeet => by
    obtain ⟨t, u, ht, hu, hcloses⟩ := hmeet.closes
    have hclosed := hapart t (List.mem_of_getElem? (hpairing ▸ ht)) u
      (List.mem_of_getElem? (hpairing ▸ hu))
    simp [hclosed] at hcloses
  exact ⟨hstray 0 (hpairing ▸ rfl), hstray 1 (hpairing ▸ rfl)⟩

/-- A closing tag that is carried behind an opening tag of its name closes it. -/
theorem projectTags_pairs_strays :
    (strayTranslation ['b'] ['b']).source.map (fun source => (ofTags source.tags).pairs) =
      some [] ∧
    ((strayTranslation ['b'] ['b']).projectTags .nearest).map
        (fun t => (t.sentence.tags.map Tag.text, (ofTags t.sentence.tags).pairs)) =
      .ok (["<b>".toList, "</b>".toList], [(0, 1)]) :=
  ⟨by cbv, by cbv⟩

end Translation

end MarkupTransfer
