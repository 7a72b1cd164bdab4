import MarkupTransfer.Projection.Pairing
/-!
# Pairs do not cross

The opening tags that may still be closed form a stack, the latest on top. A closing tag takes one
of them off along with all that lie above it, so whatever is paired later encloses the pair or lies
behind it.

* `pairsFrom_bounds`: where the two tags of a pair stand.
* `pairsFrom_apart`: of two pairs, the later one encloses the earlier one or lies behind it.
* `pairsFrom_closes`: the second tag of a pair closes the first.
* `exists_pair_of_closes`: a closing tag takes the nearest tag that is still open.
* `pairsFrom_map`: pairing looks at nothing but what tags do and their names.
-/

namespace MarkupTransfer

theorem Tag.closes_eq_true_iff {t u : Tag} : t.closes u = true ↔
    t.isDeclaration = false ∧ t.type = .closing ∧ u.begins = true ∧ t.name = u.name := by
  simp [closes, and_assoc]

theorem Tag.begins_eq_false_of_closes {t u : Tag} (h : t.closes u = true) : t.begins = false := by
  simp [begins, (closes_eq_true_iff.mp h).2.1]

namespace Pairing

/-- A stack of opening tags: the latest is on top, and all of them stand before an index. -/
structure IsStack (index : Nat) (opened : List (Nat × Tag)) : Prop where
  descending : opened.Pairwise fun a b => b.1 < a.1
  before : ∀ o ∈ opened, o.1 < index

namespace IsStack

variable {index : Nat} {opened : List (Nat × Tag)}

theorem nil (index : Nat) : IsStack index [] := ⟨.nil, by simp⟩

theorem succ (h : IsStack index opened) : IsStack (index + 1) opened :=
  ⟨h.descending, fun o ho => Nat.lt_succ_of_lt (h.before o ho)⟩

theorem push (h : IsStack index opened) (t : Tag) : IsStack (index + 1) ((index, t) :: opened) := by
  refine ⟨List.pairwise_cons.mpr ⟨h.before, h.descending⟩, fun o ho => ?_⟩
  rcases List.mem_cons.mp ho with rfl | ho
  · exact Nat.lt_succ_self index
  · exact h.succ.before o ho

theorem sublist {others : List (Nat × Tag)} (h : IsStack index opened)
    (hs : others.Sublist opened) : IsStack index others :=
  ⟨h.descending.sublist hs, fun o ho => h.before o (hs.subset ho)⟩

/-- What lies below a tag of a stack. -/
theorem below {skipped outer : List (Nat × Tag)} {o : Nat × Tag}
    (h : IsStack index (skipped ++ o :: outer)) : IsStack index outer :=
  h.sublist ((List.sublist_cons_self o outer).trans (List.sublist_append_right skipped _))

end IsStack

/-- What becomes of a tag: it opens an element, it closes the nearest one that it can close, or it
stands alone. -/
theorem pairsFrom_cons_cases (index : Nat) (opened : List (Nat × Tag)) (t : Tag)
    (rest : List Tag) :
    (t.begins = true ∧
      pairsFrom index opened (t :: rest) = pairsFrom (index + 1) ((index, t) :: opened) rest) ∨
    (∃ skipped o outer, t.begins = false ∧ t.type = .closing ∧
      opened = skipped ++ o :: outer ∧ t.closes o.2 = true ∧
      (∀ q ∈ skipped, t.closes q.2 = false) ∧
      pairsFrom index opened (t :: rest) = (o.1, index) :: pairsFrom (index + 1) outer rest) ∨
    (t.begins = false ∧ (t.type = .closing → ∀ o ∈ opened, t.closes o.2 = false) ∧
      pairsFrom index opened (t :: rest) = pairsFrom (index + 1) opened rest) := by
  rw [pairsFrom]
  cases hb : t.begins with
  | true => exact .inl ⟨rfl, rfl⟩
  | false =>
    by_cases hc : t.type = .closing
    · have hskipped : ∀ q ∈ opened.takeWhile fun o => !t.closes o.2, t.closes q.2 = false := by
        intro q hq
        simpa using List.all_eq_true.mp List.all_takeWhile q hq
      have hsplit : (opened.takeWhile fun o => !t.closes o.2) ++
          (opened.dropWhile fun o => !t.closes o.2) = opened := List.takeWhile_append_dropWhile
      cases hd : opened.dropWhile fun o => !t.closes o.2 with
      | nil =>
        rw [hd, List.append_nil] at hsplit
        exact .inr (.inr ⟨rfl, fun _ o ho => hskipped o (by rwa [hsplit]), by simp [hc]⟩)
      | cons o outer =>
        have hhead := List.head?_dropWhile_not (fun o : Nat × Tag => !t.closes o.2) opened
        refine .inr (.inl ⟨_, o, outer, rfl, hc, by rw [← hd, hsplit], ?_, hskipped, by simp [hc]⟩)
        simpa [hd] using hhead
    · exact .inr (.inr ⟨rfl, fun h => absurd h hc, by simp [hc]⟩)

/-- **Where the two tags of a pair stand.** -/
theorem pairsFrom_bounds {index : Nat} {opened : List (Nat × Tag)} {tags : List Tag}
    (h : IsStack index opened) :
    ∀ p ∈ pairsFrom index opened tags, index ≤ p.2 ∧ p.2 < index + tags.length ∧ p.1 < p.2 ∧
      (index ≤ p.1 ∨ p.1 ∈ opened.map Prod.fst) := by
  induction tags generalizing index opened with
  | nil => simp [pairsFrom]
  | cons t rest ih =>
    intro p hp
    rw [List.length_cons]
    rcases pairsFrom_cons_cases index opened t rest with
      ⟨-, heq⟩ | ⟨skipped, o, outer, -, -, rfl, -, -, heq⟩ | ⟨-, -, heq⟩ <;> rw [heq] at hp
    · obtain ⟨hlow, hhigh, hlt, hopen⟩ := ih (h.push t) p hp
      refine ⟨by omega, by omega, hlt, ?_⟩
      rw [List.map_cons, List.mem_cons] at hopen
      rcases hopen with hopen | hopen | hopen
      · exact .inl (by omega)
      · exact .inl (Nat.le_of_eq hopen.symm)
      · exact .inr hopen
    · have hsub : outer.Sublist (skipped ++ o :: outer) :=
        (List.sublist_cons_self o outer).trans (List.sublist_append_right skipped _)
      rcases List.mem_cons.mp hp with rfl | hp
      · have := h.before o (by simp)
        exact ⟨Nat.le_refl _, by omega, this, .inr (by simp)⟩
      · obtain ⟨hlow, hhigh, hlt, hopen⟩ := ih (h.sublist hsub).succ p hp
        refine ⟨by omega, by omega, hlt, ?_⟩
        rcases hopen with hopen | hopen
        · exact .inl (by omega)
        · exact .inr ((hsub.map Prod.fst).subset hopen)
    · obtain ⟨hlow, hhigh, hlt, hopen⟩ := ih h.succ p hp
      refine ⟨by omega, by omega, hlt, ?_⟩
      rcases hopen with hopen | hopen
      · exact .inl (by omega)
      · exact .inr hopen

/-- Whether a pair ends before another one does, and does not cross it: the other one encloses it or
lies behind it. -/
def IsAhead (p q : Nat × Nat) : Prop := p.2 < q.2 ∧ (q.1 < p.1 ∨ p.2 < q.1)

/-- **Of two pairs, the later one encloses the earlier one or lies behind it.** -/
theorem pairsFrom_apart {index : Nat} {opened : List (Nat × Tag)} {tags : List Tag}
    (h : IsStack index opened) : (pairsFrom index opened tags).Pairwise IsAhead := by
  induction tags generalizing index opened with
  | nil => exact .nil
  | cons t rest ih =>
    rcases pairsFrom_cons_cases index opened t rest with
      ⟨-, heq⟩ | ⟨skipped, o, outer, -, -, rfl, -, -, heq⟩ | ⟨-, -, heq⟩ <;> rw [heq]
    · exact ih (h.push t)
    · have houter : IsStack (index + 1) outer := h.below.succ
      refine List.pairwise_cons.mpr ⟨fun q hq => ?_, ih houter⟩
      obtain ⟨hlow, -, -, hopen⟩ := pairsFrom_bounds houter q hq
      refine ⟨by show index < q.2; omega, ?_⟩
      rcases hopen with hopen | hopen
      · exact .inr (by show index < q.1; omega)
      · -- What is left on the stack was opened before.
        obtain ⟨o', ho', hq'⟩ := List.mem_map.mp hopen
        have hbelow : (o :: outer).Pairwise fun a b => b.1 < a.1 :=
          h.descending.sublist (List.sublist_append_right skipped _)
        have := (List.pairwise_cons.mp hbelow).1 o' ho'
        exact .inl (by show q.1 < o.1; omega)
    · exact ih h.succ

/-- **The second tag of a pair closes the first.** -/
theorem pairsFrom_closes {index : Nat} {opened : List (Nat × Tag)} {front tags : List Tag}
    (hindex : front.length = index)
    (hopened : ∀ o ∈ opened, (front ++ tags)[o.1]? = some o.2) :
    ∀ p ∈ pairsFrom index opened tags, ∃ t u, (front ++ tags)[p.1]? = some t ∧
      (front ++ tags)[p.2]? = some u ∧ u.closes t = true := by
  induction tags generalizing index opened front with
  | nil => simp [pairsFrom]
  | cons t rest ih =>
    have hhead : (front ++ t :: rest)[index]? = some t := by simp [← hindex]
    have happend : front ++ t :: rest = (front ++ [t]) ++ rest := by simp
    have hlength : (front ++ [t]).length = index + 1 := by simp [hindex]
    intro p hp
    rcases pairsFrom_cons_cases index opened t rest with
      ⟨-, heq⟩ | ⟨skipped, o, outer, -, -, rfl, hcloses, -, heq⟩ | ⟨-, -, heq⟩ <;> rw [heq] at hp
    · rw [happend] at hopened hhead ⊢
      exact ih hlength (List.forall_mem_cons.mpr ⟨hhead, hopened⟩) p hp
    · rcases List.mem_cons.mp hp with rfl | hp
      · exact ⟨o.2, t, hopened o (by simp), hhead, hcloses⟩
      · rw [happend] at hopened ⊢
        exact ih hlength (fun q hq => hopened q (by simp [hq])) p hp
    · rw [happend] at hopened ⊢
      exact ih hlength hopened p hp

/-- What becomes of a tag on the stack that a later tag could close: a pair around it or begun by it
ends before that tag comes, or that tag closes it or something opened since. -/
theorem exists_pair_of_opened {index : Nat} {opened : List (Nat × Tag)} {tags : List Tag}
    (h : IsStack index opened) {o : Nat × Tag} (ho : o ∈ opened) {k : Nat} {u : Tag}
    (hu : tags[k]? = some u) (hcloses : u.closes o.2 = true) :
    ∃ p ∈ pairsFrom index opened tags,
      (p.1 ≤ o.1 ∧ index ≤ p.2 ∧ p.2 < index + k) ∨ (o.1 ≤ p.1 ∧ p.2 = index + k) := by
  induction tags generalizing index opened k with
  | nil => simp at hu
  | cons t rest ih =>
    rcases pairsFrom_cons_cases index opened t rest with
      ⟨hbegins, heq⟩ | ⟨skipped, q, outer, -, -, rfl, -, hskipped, heq⟩ |
        ⟨-, hopened, heq⟩ <;> rw [heq]
    · cases k with
      | zero =>
        obtain rfl : t = u := by simpa using hu
        simp [Tag.begins_eq_false_of_closes hcloses] at hbegins
      | succ k =>
        obtain ⟨p, hp, hcases⟩ := ih (h.push t) (List.mem_cons_of_mem _ ho) (by simpa using hu)
        exact ⟨p, hp, by omega⟩
    · -- What lies above the tag taken off was opened later, and what lies below it earlier.
      have habove : ∀ r ∈ skipped, q.1 < r.1 := fun r hr =>
        (List.pairwise_append.mp h.descending).2.2 r hr q (by simp)
      have hbelow : ∀ r ∈ outer, r.1 < q.1 :=
        (List.pairwise_cons.mp (List.pairwise_append.mp h.descending).2.1).1
      rw [List.mem_append, List.mem_cons] at ho
      cases k with
      | zero =>
        obtain rfl : t = u := by simpa using hu
        refine ⟨(q.1, index), by simp, .inr ⟨?_, rfl⟩⟩
        rcases ho with ho | rfl | ho
        · simp [hskipped o ho] at hcloses
        · exact Nat.le_refl _
        · exact Nat.le_of_lt (hbelow o ho)
      | succ k =>
        have hended : o.1 ≥ q.1 → ∃ p ∈ (q.1, index) :: pairsFrom (index + 1) outer rest,
            (p.1 ≤ o.1 ∧ index ≤ p.2 ∧ p.2 < index + (k + 1)) ∨
              (o.1 ≤ p.1 ∧ p.2 = index + (k + 1)) :=
          fun hge => ⟨(q.1, index), by simp, .inl ⟨hge, Nat.le_refl _, by simp⟩⟩
        rcases ho with ho | rfl | ho
        · exact hended (Nat.le_of_lt (habove o ho))
        · exact hended (Nat.le_refl _)
        · obtain ⟨p, hp, hcases⟩ := ih h.below.succ ho (by simpa using hu)
          exact ⟨p, List.mem_cons_of_mem _ hp, by omega⟩
    · cases k with
      | zero =>
        obtain rfl : t = u := by simpa using hu
        simp [hopened (Tag.closes_eq_true_iff.mp hcloses).2.1 o ho] at hcloses
      | succ k =>
        obtain ⟨p, hp, hcases⟩ := ih h.succ ho (by simpa using hu)
        exact ⟨p, hp, by omega⟩

/-- **A closing tag that could close an earlier tag does so, or closes one opened since, unless a
pair that ended before it has taken the earlier tag off the stack.** -/
theorem exists_pair_of_closes {index : Nat} {opened : List (Nat × Tag)} {tags : List Tag}
    (h : IsStack index opened) {x y : Nat} {t u : Tag} (hx : tags[x]? = some t)
    (hy : tags[y]? = some u) (hlt : x < y) (hcloses : u.closes t = true) :
    ∃ p ∈ pairsFrom index opened tags,
      (p.1 ≤ index + x ∧ index + x < p.2 ∧ p.2 < index + y) ∨
        (index + x ≤ p.1 ∧ p.2 = index + y) := by
  obtain ⟨y, rfl⟩ : ∃ z, y = z + 1 := ⟨y - 1, by omega⟩
  induction tags generalizing index opened x y with
  | nil => simp at hx
  | cons s rest ih =>
    rw [List.getElem?_cons_succ] at hy
    cases x with
    | zero =>
      obtain rfl : s = t := by simpa using hx
      have hbegins := (Tag.closes_eq_true_iff.mp hcloses).2.2.1
      have heq : pairsFrom index opened (s :: rest) =
          pairsFrom (index + 1) ((index, s) :: opened) rest := by simp [pairsFrom, hbegins]
      obtain ⟨p, hp, hcases⟩ := exists_pair_of_opened (h.push s) (List.mem_cons_self ..) hy hcloses
      exact ⟨p, heq ▸ hp, by simp only at hcases; omega⟩
    | succ x =>
      rw [List.getElem?_cons_succ] at hx
      have hstep : ∀ next : List (Nat × Tag), IsStack (index + 1) next →
          ∃ p ∈ pairsFrom (index + 1) next rest,
            (p.1 ≤ index + (x + 1) ∧ index + (x + 1) < p.2 ∧ p.2 < index + (y + 1)) ∨
              (index + (x + 1) ≤ p.1 ∧ p.2 = index + (y + 1)) := by
        intro next hnext
        obtain ⟨z, rfl⟩ : ∃ z, y = z + 1 := ⟨y - 1, by omega⟩
        obtain ⟨p, hp, hcases⟩ := ih hnext hx z hy (by omega)
        exact ⟨p, hp, by omega⟩
      rcases pairsFrom_cons_cases index opened s rest with
        ⟨-, heq⟩ | ⟨skipped, q, outer, -, -, rfl, -, -, heq⟩ | ⟨-, -, heq⟩ <;> rw [heq]
      · exact hstep _ (h.push s)
      · obtain ⟨p, hp, hcases⟩ := hstep outer h.below.succ
        exact ⟨p, List.mem_cons_of_mem _ hp, hcases⟩
      · exact hstep _ h.succ

/-- Pairing looks at nothing but what tags do and their names. -/
theorem pairsFrom_map {f : Tag → Tag} (htype : ∀ t, (f t).type = t.type)
    (hdeclaration : ∀ t, (f t).isDeclaration = t.isDeclaration) (hname : ∀ t, (f t).name = t.name)
    (index : Nat) (opened : List (Nat × Tag)) (tags : List Tag) :
    pairsFrom index (opened.map fun o => (o.1, f o.2)) (tags.map f) =
      pairsFrom index opened tags := by
  have hbegins : ∀ t, (f t).begins = t.begins := fun t => by
    simp [Tag.begins, htype, hdeclaration]
  have hcloses : ∀ t u, (f t).closes (f u) = t.closes u := fun t u => by
    simp [Tag.closes, htype, hdeclaration, hname, hbegins]
  induction tags generalizing index opened with
  | nil => rfl
  | cons t rest ih =>
    have hdrop : ((opened.map fun o => (o.1, f o.2)).dropWhile fun o => !(f t).closes o.2) =
        (opened.dropWhile fun o => !t.closes o.2).map fun o => (o.1, f o.2) := by
      rw [List.dropWhile_map]
      congr 2
      funext o
      simp [hcloses]
    rw [List.map_cons, pairsFrom, pairsFrom, hbegins, htype, hdrop]
    split
    · exact ih (index + 1) ((index, t) :: opened)
    · split
      · cases opened.dropWhile fun o => !t.closes o.2 with
        | nil => exact ih (index + 1) opened
        | cons o outer => exact congrArg ((o.1, index) :: ·) (ih (index + 1) outer)
      · exact ih (index + 1) opened

/-! ## Nested pairs -/

/-- Pairs of places among `count` ones of which none crosses another. They are listed in the order
of their ends. -/
structure AreNested (count : Nat) (pairs : List (Nat × Nat)) : Prop where
  bounds : ∀ p ∈ pairs, p.1 < p.2 ∧ p.2 < count
  apart : pairs.Pairwise IsAhead

theorem ofTags_areNested (tags : List Tag) :
    AreNested (ofTags tags).tags.length (ofTags tags).pairs where
  bounds p hp := by
    obtain ⟨-, hcount, hlt, -⟩ := pairsFrom_bounds (IsStack.nil 0) p hp
    exact ⟨hlt, by simpa [ofTags] using hcount⟩
  apart := pairsFrom_apart (IsStack.nil 0)

theorem closes_of_mem_pairs {tags : List Tag} {o c : Nat} (h : (o, c) ∈ (ofTags tags).pairs) :
    ∃ t u, (ofTags tags).tags[o]? = some t ∧ (ofTags tags).tags[c]? = some u ∧
      u.closes t = true :=
  @pairsFrom_closes 0 [] [] (Sentence.sortTags tags) rfl (by simp) (o, c) h

namespace AreNested

variable {count : Nat} {pairs : List (Nat × Nat)} {p q : Nat × Nat}

theorem eq_or_isAhead (h : AreNested count pairs) (hp : p ∈ pairs) (hq : q ∈ pairs) :
    p = q ∨ IsAhead p q ∨ IsAhead q p := by
  have hflip : pairs.Pairwise (flip fun p q => p = q ∨ IsAhead p q ∨ IsAhead q p) :=
    h.apart.imp fun hpq => .inr (.inr hpq)
  exact List.Pairwise.forall_of_forall_of_flip (fun _ _ => .inl rfl)
    (h.apart.imp fun hpq => .inr (.inl hpq)) hflip hp hq

/-- A tag opens one element at most. -/
theorem eq_of_opening (h : AreNested count pairs) (hp : p ∈ pairs) (hq : q ∈ pairs)
    (heq : p.1 = q.1) : p = q := by
  have hboundsp := h.bounds p hp
  have hboundsq := h.bounds q hq
  have := h.eq_or_isAhead hp hq
  unfold IsAhead at this
  rcases this with rfl | hpq | hpq
  · rfl
  · omega
  · omega

/-- A tag closes one element at most. -/
theorem eq_of_closing (h : AreNested count pairs) (hp : p ∈ pairs) (hq : q ∈ pairs)
    (heq : p.2 = q.2) : p = q := by
  have := h.eq_or_isAhead hp hq
  unfold IsAhead at this
  rcases this with rfl | hpq | hpq
  · rfl
  · omega
  · omega

/-- No tag opens one element and closes another. -/
theorem opening_ne_closing (h : AreNested count pairs) (hp : p ∈ pairs) (hq : q ∈ pairs) :
    p.1 ≠ q.2 := by
  have hboundsp := h.bounds p hp
  have hboundsq := h.bounds q hq
  have := h.eq_or_isAhead hp hq
  unfold IsAhead at this
  rcases this with rfl | hpq | hpq <;> omega

/-- A pair that begins inside another one ends inside it. -/
theorem closing_lt (h : AreNested count pairs) (hp : p ∈ pairs) (hq : q ∈ pairs)
    (hopen : p.1 < q.1) (hclose : q.1 < p.2) : q.2 < p.2 := by
  have := h.eq_or_isAhead hp hq
  unfold IsAhead at this
  rcases this with rfl | hpq | hpq <;> omega

end AreNested

/-! ## Looking pairs up -/

theorem closing?_eq_some_iff {p : Pairing} {count : Nat} (h : AreNested count p.pairs)
    {i c : Nat} : p.closing? i = some c ↔ (i, c) ∈ p.pairs := by
  rw [closing?, List.lookup_eq_some_iff]
  constructor
  · rintro ⟨front, back, heq, -⟩
    simp [heq]
  · intro hmem
    obtain ⟨front, back, heq⟩ := List.append_of_mem hmem
    refine ⟨front, back, heq, fun q hq => ?_⟩
    have hapart := (List.pairwise_append.mp (heq ▸ h.apart)).2.2 q hq (i, c) (by simp)
    have hne : i ≠ q.1 := by
      intro hi
      have := h.eq_of_opening hmem (by simp [heq, hq] : q ∈ p.pairs) hi
      simp [IsAhead, ← this] at hapart
    simpa using hne

theorem isSome_opening?_iff {p : Pairing} {i : Nat} :
    (p.opening? i).isSome = true ↔ ∃ o, (o, i) ∈ p.pairs := by
  rw [opening?, Option.isSome_map, List.find?_isSome]
  constructor
  · rintro ⟨q, hq, heq⟩
    exact ⟨q.1, by simpa [← (beq_iff_eq.mp heq)] using hq⟩
  · rintro ⟨o, ho⟩
    exact ⟨(o, i), ho, by simp⟩

/-- A tag has a partner if it belongs to a pair. -/
theorem isSome_partner?_iff {p : Pairing} {count : Nat} (h : AreNested count p.pairs) {i : Nat} :
    (p.partner? i).isSome = true ↔ ∃ q ∈ p.pairs, q.1 = i ∨ q.2 = i := by
  have hclosing : (p.closing? i).isSome = true ↔ ∃ c, (i, c) ∈ p.pairs := by
    simp only [Option.isSome_iff_exists, closing?_eq_some_iff h]
  have horElse : (p.partner? i).isSome = true ↔
      (p.closing? i).isSome = true ∨ (p.opening? i).isSome = true := by
    rw [partner?]
    cases p.closing? i <;> simp
  rw [horElse, hclosing, isSome_opening?_iff]
  constructor
  · rintro (⟨c, hc⟩ | ⟨o, ho⟩)
    · exact ⟨(i, c), hc, .inl rfl⟩
    · exact ⟨(o, i), ho, .inr rfl⟩
  · rintro ⟨⟨o, c⟩, hq, rfl | rfl⟩
    · exact .inl ⟨c, hq⟩
    · exact .inr ⟨o, hq⟩

end Pairing

end MarkupTransfer
