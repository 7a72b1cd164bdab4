/-!
# Pairs of tags in two orders

Tags whose pairs are known come in another order, and pairs are found among them anew. If the new
order keeps what the old pairs hold, then each closing tag that had a partner takes it again, unless
stray tags have met before: a stray closing tag that stood in front of a stray opening tag stands
behind it now.

* `IsMatching`: what makes pairs those of tags that are met in a given order.
* `KeepsPairs`: an order that keeps what pairs hold.
* `IsMatching.pair_of_found_of_pair`, `IsMatching.mayMeet_of_found`: what a closing tag takes, if
  only old pairs have been found before it.
* `IsMatching.strays_iff`: stray tags stay stray if and only if none of them meet.
-/

namespace MarkupTransfer

/-- What makes pairs those of tags that are met in the order of their places: the second tag of each
closes the first, none crosses another, and a closing tag takes the nearest tag that is still open.
`closes c o` says that the tag `c` could close the tag `o`. -/
structure IsMatching (place : Nat → Nat) (closes pairs : Nat → Nat → Prop) : Prop where
  closes_of_pair : ∀ {o c}, pairs o c → closes c o
  lt_of_pair : ∀ {o c}, pairs o c → place o < place c
  closing_unique : ∀ {o c c'}, pairs o c → pairs o c' → c = c'
  opening_unique : ∀ {o o' c}, pairs o c → pairs o' c → o = o'
  lt_of_inside : ∀ {o c o' c'}, pairs o c → pairs o' c' → place o < place o' → place o' < place c →
    place c' < place c
  nearest : ∀ {x y}, place x < place y → closes y x → ∃ o c, pairs o c ∧
    ((o = x ∨ place o < place x) ∧ place x < place c ∧ place c < place y ∨
      (o = x ∨ place x < place o) ∧ c = y)

/-- A row of tags in another order that keeps what pairs hold: the two tags of each pair stand in
their order, with the same tags between them. -/
structure KeepsPairs (place : Nat → Nat) (pairs : Nat → Nat → Prop) : Prop where
  lt : ∀ {o c}, pairs o c → place o < place c
  eq_closing : ∀ {o c x}, pairs o c → place x = place c → x = c
  between_iff : ∀ {o c x}, pairs o c → (place o < place x ∧ place x < place c ↔ o < x ∧ x < c)

/-- A stray opening tag and, in front of it, a stray closing tag that would close it from behind.
Every pair around the opening tag is around the closing tag too. -/
structure MayMeet (closes pairs : Nat → Nat → Prop) (x y : Nat) : Prop where
  lt : y < x
  closes : closes y x
  opening_free : ∀ c, ¬ pairs x c
  closing_free : ∀ o, ¬ pairs o y
  around : ∀ o c, pairs o c → o < x → x < c → o < y ∧ y < c

namespace IsMatching

variable {place : Nat → Nat} {closes pairs found : Nat → Nat → Prop}

section

variable (hold : IsMatching id closes pairs) (hkeeps : KeepsPairs place pairs)

include hold hkeeps

/-- Of two old pairs, none begins at the first tag of the other one or in front of it and ends
inside it. -/
theorem not_crossed {o c o' c' : Nat} (hpair : pairs o c) (hpair' : pairs o' c')
    (ho : o' = o ∨ place o' < place o) (hoc : place o < place c') : ¬ place c' < place c := by
  intro hcc
  rcases ho with rfl | ho
  · obtain rfl := hold.closing_unique hpair hpair'
    exact Nat.lt_irrefl _ hcc
  · obtain ⟨hoo, hoc'⟩ := (hkeeps.between_iff hpair').mp ⟨ho, hoc⟩
    have hlt : o < c := hold.lt_of_pair hpair
    have hinside : c < c' := hold.lt_of_inside hpair' hpair hoo hoc'
    have := (hkeeps.between_iff hpair').mpr ⟨Nat.lt_trans hoo hlt, hinside⟩
    omega

variable (hnew : IsMatching place closes found)

include hnew

/-- Old pairs that end before a place are found, if none but old ones are found before it. -/
theorem found_of_pair {bound : Nat} (hbefore : ∀ o c, found o c → place c < bound → pairs o c)
    {o c : Nat} (hpair : pairs o c) (hc : place c < bound) : found o c := by
  obtain ⟨o', c', hfound, ⟨ho, hoc, hcc⟩ | ⟨-, rfl⟩⟩ :=
    hnew.nearest (hkeeps.lt hpair) (hold.closes_of_pair hpair)
  · have hpair' := hbefore o' c' hfound (Nat.lt_trans hcc hc)
    exact absurd hcc (hold.not_crossed hkeeps hpair hpair' ho hoc)
  · obtain rfl := hold.opening_unique (hbefore o' c' hfound hc) hpair
    exact hfound

/-- No pair that is found crosses an old pair that ends before it, nor takes its first tag. -/
theorem not_found_across {x y o c : Nat}
    (hbefore : ∀ o c, found o c → place c < place y → pairs o c) (hfound : found x y)
    (hpair : pairs o c) (ho : o = x ∨ o < x) (hxc : x < c) : ¬ place c < place y := by
  intro hcy
  have hfound' := hold.found_of_pair hkeeps hnew hbefore hpair hcy
  rcases ho with rfl | hox
  · obtain rfl := hnew.closing_unique hfound hfound'
    exact Nat.lt_irrefl _ hcy
  · obtain ⟨hox', hxc'⟩ := (hkeeps.between_iff hpair).mpr ⟨hox, hxc⟩
    exact Nat.lt_asymm hcy (hnew.lt_of_inside hfound' hfound hox' hxc')

/-- A closing tag that had a partner takes that one again. -/
theorem pair_of_found_of_pair {o x y : Nat}
    (hbefore : ∀ o c, found o c → place c < place y → pairs o c) (hpair : pairs o y)
    (hfound : found x y) : pairs x y := by
  obtain ⟨o', c', hfound', ⟨ho, hoc, hcc⟩ | ⟨ho, hcy⟩⟩ :=
    hnew.nearest (hkeeps.lt hpair) (hold.closes_of_pair hpair)
  · have hpair' := hbefore o' c' hfound' hcc
    exact absurd hcc (hold.not_crossed hkeeps hpair hpair' ho hoc)
  subst hcy
  obtain rfl := hnew.opening_unique hfound hfound'
  rcases ho with rfl | ho
  · exact hpair
  -- Inside the old pair, a pair that ended before took the tag off the stack.
  exfalso
  obtain ⟨hox, hxy⟩ := (hkeeps.between_iff hpair).mp ⟨ho, hnew.lt_of_pair hfound⟩
  obtain ⟨o', c, hpair', ⟨ho', hxc, hcy⟩ | ⟨ho', rfl⟩⟩ :=
    hold.nearest hxy (hnew.closes_of_pair hfound)
  · have hinside := (hkeeps.between_iff hpair).mpr ⟨Nat.lt_trans hox hxc, hcy⟩
    exact hold.not_found_across hkeeps hnew hbefore hfound hpair' ho' hxc hinside.2
  · obtain rfl := hold.opening_unique hpair hpair'
    rcases ho' with rfl | ho'
    · exact Nat.lt_irrefl _ hox
    · exact Nat.lt_asymm hox ho'

/-- A closing tag that had no partner takes an opening tag that had none either, and stood in front
of it. -/
theorem mayMeet_of_found {x y : Nat}
    (hbefore : ∀ o c, found o c → place c < place y → pairs o c)
    (hfree : ∀ o, ¬ pairs o y) (hfound : found x y) : MayMeet closes pairs x y := by
  have hcloses := hnew.closes_of_pair hfound
  have hlt := hnew.lt_of_pair hfound
  -- A pair that holds the opening tag or begins with it does not end before the closing tag.
  have hpast : ∀ {o c}, pairs o c → o = x ∨ o < x → x < c → place y < place c := by
    intro o c hpair ho hxc
    have hge := hold.not_found_across hkeeps hnew hbefore hfound hpair ho hxc
    rcases Nat.lt_or_eq_of_le (Nat.not_lt.mp hge) with hlt | heq
    · exact hlt
    · obtain rfl := hkeeps.eq_closing hpair heq
      exact absurd hpair (hfree o)
  have haround : ∀ o c, pairs o c → o < x → x < c → o < y ∧ y < c := by
    intro o c hpair hox hxc
    have hox' := ((hkeeps.between_iff hpair).mpr ⟨hox, hxc⟩).1
    exact (hkeeps.between_iff hpair).mp ⟨Nat.lt_trans hox' hlt, hpast hpair (.inr hox) hxc⟩
  have hbegun : ∀ c, pairs x c → x < y ∧ y < c := fun c hpair =>
    (hkeeps.between_iff hpair).mp ⟨hlt, hpast hpair (.inl rfl) (hold.lt_of_pair hpair)⟩
  have hbehind : ¬ x < y := by
    intro hxy
    obtain ⟨o, c, hpair, ⟨rfl | ho, hxc, hcy⟩ | ⟨-, rfl⟩⟩ := hold.nearest hxy hcloses
    · exact Nat.lt_asymm hcy (hbegun c hpair).2
    · exact Nat.lt_asymm hcy (haround o c hpair ho hxc).2
    · exact hfree o hpair
  have hne : x ≠ y := by
    rintro rfl
    exact Nat.lt_irrefl _ hlt
  exact ⟨by omega, hcloses, fun c hpair => hbehind (hbegun c hpair).1, hfree, haround⟩

/-- As long as no stray tags meet, the pairs that are found are old ones. -/
theorem pair_of_found (hapart : ∀ x y, MayMeet closes pairs x y → ¬ place x < place y) {x y : Nat}
    (hfound : found x y) : pairs x y := by
  induction hn : place y using Nat.strongRecOn generalizing x y with
  | ind n ih =>
    subst hn
    have hbefore : ∀ o c, found o c → place c < place y → pairs o c :=
      fun o c hfound hlt => ih _ hlt hfound rfl
    by_cases hfree : ∀ o, ¬ pairs o y
    · have hmeet := hold.mayMeet_of_found hkeeps hnew hbefore hfree hfound
      exact absurd (hnew.lt_of_pair hfound) (hapart x y hmeet)
    · obtain ⟨o, hpair⟩ := by simpa using hfree
      exact hold.pair_of_found_of_pair hkeeps hnew hbefore hpair hfound

/-- As long as no stray tag is paired, the pairs that are found are old ones. -/
theorem pair_of_found_of_strays (hone : ∀ {x y z}, closes y x → ¬ closes z y)
    (hstray : ∀ x, (∀ z, ¬ pairs x z ∧ ¬ pairs z x) → ∀ z, ¬ found x z ∧ ¬ found z x) {x y : Nat}
    (hfound : found x y) : pairs x y := by
  induction hn : place y using Nat.strongRecOn generalizing x y with
  | ind n ih =>
    subst hn
    by_cases hfree : ∀ o, ¬ pairs o y
    · have hopens : ∀ z, ¬ pairs y z := fun z hpair =>
        hone (hnew.closes_of_pair hfound) (hold.closes_of_pair hpair)
      exact absurd hfound (hstray y (fun z => ⟨hopens z, hfree z⟩) x).2
    · obtain ⟨o, hpair⟩ := by simpa using hfree
      exact hold.pair_of_found_of_pair hkeeps hnew (fun o c hfound hlt => ih _ hlt hfound rfl) hpair
        hfound

/-- **Stray tags stay stray if and only if none of them meet.** -/
theorem strays_iff (hone : ∀ {x y z}, closes y x → ¬ closes z y) :
    (∀ x, (∀ z, ¬ pairs x z ∧ ¬ pairs z x) → ∀ z, ¬ found x z ∧ ¬ found z x) ↔
      ∀ x y, MayMeet closes pairs x y → ¬ place x < place y := by
  constructor
  · intro hstray x y hmeet hlt
    have hopening : ∀ z, ¬ found x z := fun z => (hstray x (fun z => ⟨hmeet.opening_free z,
      fun hpair => hone (hold.closes_of_pair hpair) hmeet.closes⟩) z).1
    have hclosing : ∀ z, ¬ found z y := fun z => (hstray y (fun z => ⟨fun hpair =>
      hone hmeet.closes (hold.closes_of_pair hpair), hmeet.closing_free z⟩) z).2
    obtain ⟨o, c, hfound, ⟨rfl | ho, hxc, hcy⟩ | ⟨-, rfl⟩⟩ := hnew.nearest hlt hmeet.closes
    · exact hopening c hfound
    · have hpair := hold.pair_of_found_of_strays hkeeps hnew hone hstray hfound
      obtain ⟨hox, hxc'⟩ := (hkeeps.between_iff hpair).mp ⟨ho, hxc⟩
      have := ((hkeeps.between_iff hpair).mpr (hmeet.around o c hpair hox hxc')).2
      omega
    · exact hclosing o hfound
  · intro hapart x hfree z
    exact ⟨fun hfound => (hfree z).1 (hold.pair_of_found hkeeps hnew hapart hfound),
      fun hfound => (hfree z).2 (hold.pair_of_found hkeeps hnew hapart hfound)⟩

end

end IsMatching

end MarkupTransfer
