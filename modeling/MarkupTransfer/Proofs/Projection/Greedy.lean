import MarkupTransfer.Proofs.Projection.Strays
/-!
# Closing tags take what is nearest

A pair takes its two tags, and all that stands between them, out of the run: no later closing tag
can reach in there. Of what is left a closing tag takes the nearest opening tag of its name. That
settles the pairs of tags, whatever the tags are.

* `IsGreedy`: partners are chosen so.
* `isGreedy_ofTags`: the partners of tags are.
* `IsGreedy.partner?_eq`: no others are.
* `ofTags_unique_greedy`: both together.
-/

namespace MarkupTransfer

namespace Pairing

/-- An opening tag waits for a closing tag behind it: it has the same name, is no declaration, and
no pair that ends in front of the closing tag has it or stands around it. -/
structure Awaits (p : Pairing) (o c : Nat) : Prop where
  lt : o < c
  begins : ∃ t u, p.tags[o]? = some t ∧ p.tags[c]? = some u ∧ t.type = .opening ∧
    t.isDeclaration = false ∧ t.name = u.name
  outside : ∀ a b, p.partner? a = some b → a < b → b < c → ¬ (a ≤ o ∧ o ≤ b)

/-- Partners that are chosen greedily. Two tags are each other's partners, the first one opens what
the second one closes, and no two pairs cross. A closing tag has as its partner the last opening tag
that waits for it, and none only if none waits or if it is a declaration. -/
structure IsGreedy (p : Pairing) : Prop where
  symm : ∀ {i j}, p.partner? i = some j → p.partner? j = some i
  ne : ∀ {i j}, p.partner? i = some j → i ≠ j
  closes : ∀ {o c}, p.partner? o = some c → o < c → ∃ t u, p.tags[o]? = some t ∧
    p.tags[c]? = some u ∧ t.type = .opening ∧ u.type = .closing ∧ u.closes t = true
  not_crossed : ∀ {o c o' c'}, p.partner? o = some c → p.partner? o' = some c' →
    ¬ (o < o' ∧ o' < c ∧ c < c')
  nearest : ∀ {c u}, p.tags[c]? = some u → u.type = .closing → u.isDeclaration = false →
    ∀ o, p.partner? c = some o ↔ p.Awaits o c ∧ ∀ o', p.Awaits o' c → o' ≤ o
  stray : ∀ {c u}, p.tags[c]? = some u → u.type = .closing →
    (p.partner? c = none ↔ u.isDeclaration = true ∨ ∀ o, ¬ p.Awaits o c)

theorem begins_eq_true_iff {t : Tag} :
    t.begins = true ↔ t.type = .opening ∧ t.isDeclaration = false := by
  simp [Tag.begins]

section

variable {p : Pairing} {count i j : Nat} (hn : AreNested count p.pairs)

include hn

theorem opening?_eq_some_iff : p.opening? j = some i ↔ p.Pairs i j := by
  constructor
  · intro h
    obtain ⟨pair, hfind, rfl⟩ := Option.map_eq_some_iff.mp h
    obtain rfl : pair.2 = j := by simpa using List.find?_some hfind
    exact List.mem_of_find?_eq_some hfind
  · intro hpair
    obtain ⟨o, ho⟩ := Option.isSome_iff_exists.mp (isSome_opening?_iff.mpr ⟨i, hpair⟩)
    obtain ⟨pair, hfind, rfl⟩ := Option.map_eq_some_iff.mp ho
    have hsame : pair.2 = j := by simpa using List.find?_some hfind
    rw [ho, hn.eq_of_closing (List.mem_of_find?_eq_some hfind) hpair hsame]

/-- **The partner of a tag** is the other tag of its pair. -/
theorem partner?_eq_some_iff : p.partner? i = some j ↔ p.Pairs i j ∨ p.Pairs j i := by
  have hnone : p.Pairs j i → p.closing? i = none := by
    intro hpair
    rw [Option.eq_none_iff_forall_ne_some]
    intro c hc
    exact hn.opening_ne_closing ((closing?_eq_some_iff hn).mp hc) hpair rfl
  rw [partner?, Option.orElse_eq_some, closing?_eq_some_iff hn, opening?_eq_some_iff hn]
  exact or_congr_right ⟨And.right, fun hpair => ⟨hnone hpair, hpair⟩⟩

/-- The pair of two partners, told by their places. -/
theorem pairs_of_partner? (h : p.partner? i = some j) (hlt : i < j) : p.Pairs i j := by
  rcases (partner?_eq_some_iff hn).mp h with hpair | hpair
  · exact hpair
  · exact absurd (hn.bounds _ hpair).1 (Nat.lt_asymm hlt)

end

/-- What waits for a closing tag could be closed by it. -/
theorem Awaits.closes {p : Pairing} {o c : Nat} {u : Tag} (h : p.Awaits o c)
    (hu : p.tags[c]? = some u) (htype : u.type = .closing)
    (hdeclaration : u.isDeclaration = false) : p.Closes c o := by
  obtain ⟨t, u', ht, hu', hopening, hbegins, hname⟩ := h.begins
  obtain rfl : u = u' := Option.some.inj (hu.symm.trans hu')
  exact ⟨t, u, ht, hu, Tag.closes_eq_true_iff.mpr
    ⟨hdeclaration, htype, begins_eq_true_iff.mpr ⟨hopening, hbegins⟩, hname.symm⟩⟩

section

variable {tags : List Tag} {o c : Nat}

/-- What the two tags of a pair are. -/
theorem types_of_pairs (hpair : (ofTags tags).Pairs o c) : ∃ t u,
    (ofTags tags).tags[o]? = some t ∧ (ofTags tags).tags[c]? = some u ∧ t.type = .opening ∧
      u.type = .closing ∧ u.closes t = true := by
  obtain ⟨t, u, ht, hu, hcloses⟩ := closes_of_mem_pairs hpair
  obtain ⟨-, htype, hbegins, -⟩ := Tag.closes_eq_true_iff.mp hcloses
  exact ⟨t, u, ht, hu, (begins_eq_true_iff.mp hbegins).1, htype, hcloses⟩

/-- The opening tag of a pair has waited for its closing tag. -/
theorem awaits_of_pairs (hpair : (ofTags tags).Pairs o c) : (ofTags tags).Awaits o c := by
  have hn := ofTags_areNested tags
  obtain ⟨t, u, ht, hu, hcloses⟩ := closes_of_mem_pairs hpair
  obtain ⟨-, -, hbegins, hname⟩ := Tag.closes_eq_true_iff.mp hcloses
  obtain ⟨hopening, hdeclaration⟩ := begins_eq_true_iff.mp hbegins
  refine ⟨(hn.bounds _ hpair).1, ⟨t, u, ht, hu, hopening, hdeclaration, hname.symm⟩, ?_⟩
  rintro a b hpartner hab hbc ⟨hao, hob⟩
  have hpair' : (a, b) ∈ (ofTags tags).pairs := pairs_of_partner? hn hpartner hab
  have hahead := hn.eq_or_isAhead hpair' hpair
  simp only [IsAhead, Prod.mk.injEq] at hahead
  omega

variable {u : Tag} (hu : (ofTags tags).tags[c]? = some u) (htype : u.type = .closing)

include hu htype

/-- A closing tag is the second tag of its pair. -/
theorem partner?_eq_some_iff_of_closing : (ofTags tags).partner? c = some o ↔
    (ofTags tags).Pairs o c := by
  rw [partner?_eq_some_iff (ofTags_areNested tags)]
  refine or_iff_right fun hpair => ?_
  obtain ⟨t, -, ht, -, hopening, -⟩ := types_of_pairs hpair
  rw [Option.some.inj (hu.symm.trans ht), hopening] at htype
  cases htype

/-- **A closing tag for which a tag waits takes that one, or a later one.** -/
theorem exists_pairs_of_awaits (hdeclaration : u.isDeclaration = false)
    (h : (ofTags tags).Awaits o c) : ∃ o', (ofTags tags).Pairs o' c ∧ o ≤ o' := by
  obtain ⟨a, b, hpair, ⟨hao, hob, hbc⟩ | ⟨hoa, rfl⟩⟩ :=
    (isMatching_ofTags tags).nearest h.lt (h.closes hu htype hdeclaration)
  · -- A pair that ends in front of the closing tag does not stand around what waits.
    have hpartner := (partner?_eq_some_iff (ofTags_areNested tags)).mpr (.inl hpair)
    have hlt := ((ofTags_areNested tags).bounds _ hpair).1
    simp only [id] at hao hob hbc
    exact absurd ⟨by omega, by omega⟩ (h.outside a b hpartner hlt hbc)
  · simp only [id] at hoa
    exact ⟨a, hpair, by omega⟩

/-- **A closing tag takes the last tag that waits for it.** -/
theorem partner?_eq_some_iff_awaits (hdeclaration : u.isDeclaration = false) :
    (ofTags tags).partner? c = some o ↔
      (ofTags tags).Awaits o c ∧ ∀ o', (ofTags tags).Awaits o' c → o' ≤ o := by
  rw [partner?_eq_some_iff_of_closing hu htype]
  constructor
  · intro hpair
    refine ⟨awaits_of_pairs hpair, fun o' hawaits => ?_⟩
    obtain ⟨o'', hpair', hle⟩ := exists_pairs_of_awaits hu htype hdeclaration hawaits
    obtain rfl := (isMatching_ofTags tags).opening_unique hpair hpair'
    exact hle
  · rintro ⟨hawaits, hlast⟩
    obtain ⟨o', hpair, hle⟩ := exists_pairs_of_awaits hu htype hdeclaration hawaits
    obtain rfl := Nat.le_antisymm hle (hlast o' (awaits_of_pairs hpair))
    exact hpair

/-- **A closing tag takes none only if none waits for it, or if it is a declaration.** -/
theorem partner?_eq_none_iff_awaits : (ofTags tags).partner? c = none ↔
    u.isDeclaration = true ∨ ∀ o, ¬ (ofTags tags).Awaits o c := by
  simp only [Option.eq_none_iff_forall_ne_some, ne_eq, partner?_eq_some_iff_of_closing hu htype]
  constructor
  · intro hfree
    refine or_iff_not_imp_left.mpr fun hdeclaration o hawaits => ?_
    obtain ⟨o', hpair, -⟩ :=
      exists_pairs_of_awaits hu htype (Bool.eq_false_iff.mpr hdeclaration) hawaits
    exact hfree o' hpair
  · rintro (hdeclaration | hnone) o hpair
    · obtain ⟨t, u', -, hu', hcloses⟩ := closes_of_mem_pairs hpair
      obtain rfl : u = u' := Option.some.inj (hu.symm.trans hu')
      simp [(Tag.closes_eq_true_iff.mp hcloses).1] at hdeclaration
    · exact hnone o (awaits_of_pairs hpair)

end

/-- **The partners of tags are chosen greedily.** -/
theorem isGreedy_ofTags (tags : List Tag) : (ofTags tags).IsGreedy := by
  have hn := ofTags_areNested tags
  constructor
  case symm => exact fun h => (partner?_eq_some_iff hn).mpr ((partner?_eq_some_iff hn).mp h).symm
  case ne =>
    intro i j h
    rcases (partner?_eq_some_iff hn).mp h with hpair | hpair
    · exact Nat.ne_of_lt (hn.bounds _ hpair).1
    · exact Nat.ne_of_gt (hn.bounds _ hpair).1
  case closes => exact fun h hlt => types_of_pairs (pairs_of_partner? hn h hlt)
  case not_crossed =>
    rintro o c o' c' h h' ⟨hoo, hoc, hcc⟩
    have hpair : (o, c) ∈ (ofTags tags).pairs := pairs_of_partner? hn h (by omega)
    have hpair' : (o', c') ∈ (ofTags tags).pairs := pairs_of_partner? hn h' (by omega)
    exact Nat.lt_asymm hcc (hn.closing_lt hpair hpair' hoo hoc)
  case nearest => exact fun hu htype hdeclaration o =>
    partner?_eq_some_iff_awaits hu htype hdeclaration
  case stray => exact fun hu htype => partner?_eq_none_iff_awaits hu htype

/-! ## There is one way to choose -/

/-- If earlier closing tags have the same partners, the same tags wait for a closing tag. -/
theorem Awaits.of_before {p q : Pairing} (htags : p.tags = q.tags) {o c : Nat}
    (hbefore : ∀ a b, b < c → a < b → q.partner? a = some b → p.partner? a = some b)
    (h : p.Awaits o c) : q.Awaits o c :=
  ⟨h.lt, htags ▸ h.begins, fun a b hpartner hab hbc =>
    h.outside a b (hbefore a b hbc hab hpartner) hab hbc⟩

namespace IsGreedy

variable {p q : Pairing}

/-- A pair of one choice is a pair of another one if the same tags wait for its closing tag. -/
theorem partner?_of_awaits (hp : p.IsGreedy) (hq : q.IsGreedy) (htags : p.tags = q.tags)
    {o c : Nat} (hawaits : ∀ o, p.Awaits o c ↔ q.Awaits o c) (hlt : o < c)
    (h : p.partner? o = some c) : q.partner? o = some c := by
  obtain ⟨_, u, -, hu, -, htype, hcloses⟩ := hp.closes h hlt
  have hdeclaration := (Tag.closes_eq_true_iff.mp hcloses).1
  obtain ⟨hwaits, hlast⟩ := (hp.nearest hu htype hdeclaration o).mp (hp.symm h)
  refine hq.symm ((hq.nearest (htags ▸ hu) htype hdeclaration o).mpr ⟨(hawaits o).mp hwaits, ?_⟩)
  exact fun o' hwaits' => hlast o' ((hawaits o').mpr hwaits')

/-- Two choices have the same pairs. -/
theorem pair_iff_pair (hp : p.IsGreedy) (hq : q.IsGreedy) (htags : p.tags = q.tags) {o c : Nat}
    (hlt : o < c) : p.partner? o = some c ↔ q.partner? o = some c := by
  induction c using Nat.strongRecOn generalizing o with
  | ind c ih =>
    have hawaits : ∀ o, p.Awaits o c ↔ q.Awaits o c := fun o =>
      ⟨Awaits.of_before htags fun a b hbc hab => (ih b hbc hab).mpr,
        Awaits.of_before htags.symm fun a b hbc hab => (ih b hbc hab).mp⟩
    exact ⟨hp.partner?_of_awaits hq htags hawaits hlt,
      hq.partner?_of_awaits hp htags.symm (fun o => (hawaits o).symm) hlt⟩

/-- **Tags can be paired greedily in one way only.** -/
theorem partner?_eq (hp : p.IsGreedy) (hq : q.IsGreedy) (htags : p.tags = q.tags) (i : Nat) :
    p.partner? i = q.partner? i := by
  ext j
  rcases Nat.lt_trichotomy i j with hlt | rfl | hgt
  · exact hp.pair_iff_pair hq htags hlt
  · exact ⟨fun h => absurd rfl (hp.ne h), fun h => absurd rfl (hq.ne h)⟩
  · exact ⟨fun h => hq.symm ((hp.pair_iff_pair hq htags hgt).mp (hp.symm h)),
      fun h => hp.symm ((hp.pair_iff_pair hq htags hgt).mpr (hq.symm h))⟩

end IsGreedy

/-- **Tags are paired greedily, and in no other way.** Partners belong to each other and to no third
tag, an opening tag in front and a closing tag of its name behind it, and no two pairs cross. A
closing tag has the last opening tag of its name that stands in front of it and is no part of an
earlier pair, nor inside one. No other choice of partners does all that. -/
theorem ofTags_unique_greedy (tags : List Tag) : (ofTags tags).IsGreedy ∧
    ∀ p : Pairing, p.IsGreedy → p.tags = (ofTags tags).tags →
      ∀ i, p.partner? i = (ofTags tags).partner? i :=
  ⟨isGreedy_ofTags tags, fun _ hp htags => hp.partner?_eq (isGreedy_ofTags tags) htags⟩

end Pairing

end MarkupTransfer
