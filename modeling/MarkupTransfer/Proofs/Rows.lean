import Mathlib.Data.List.Sort
/-!
# Rows

What is said of rows of cells, parts, stretches and tags alike: where an element of a row stands
that is put together from several, and which of two elements comes first. The latter is said by a
sublist, `[a, b].Sublist l`. Such facts go over to longer rows and to sorted ones, so they can be
gathered from parts of a row, and in a row without repetitions they settle the order.

* `exists_of_flatten_eq`, `exists_of_flatMap_eq`: an element of a row that is put together.
* `pair_sublist_append`: where two elements stand in a row put together from two.
* `pair_sublist_antisymm`: without repetitions, two elements come in one order only.
* `eq_range_of_pair_sublist`: an order of numbers is told by its pairs.
-/

namespace MarkupTransfer

variable {α : Type}

/-! ## Rows put together -/

/-- An element of rows put together is an element of one of them. -/
theorem exists_of_flatten_eq {rows : List (List α)} {as bs : List α} {x : α}
    (h : rows.flatten = as ++ x :: bs) :
    ∃ front xs ys back, rows = front ++ (xs ++ x :: ys) :: back ∧ as = front.flatten ++ xs ∧
      bs = ys ++ back.flatten := by
  rcases List.flatten_eq_append_iff.mp h with ⟨front, rest, rfl, rfl, hrest⟩ |
    ⟨front, xs, y, ys, back, rfl, rfl, hcons⟩
  · obtain ⟨empty, ys, back, rfl, hempty, rfl⟩ := List.flatten_eq_cons_iff.mp hrest.symm
    exact ⟨front ++ empty, [], ys, back, by simp, by simp [List.flatten_eq_nil_iff.mpr hempty], rfl⟩
  · obtain ⟨rfl, rfl⟩ := List.cons.inj hcons
    exact ⟨front, xs, ys, back, rfl, rfl, rfl⟩

theorem exists_of_flatMap_eq {β : Type} {f : β → List α} {gs : List β} {as bs : List α} {x : α}
    (h : gs.flatMap f = as ++ x :: bs) :
    ∃ front g back xs ys, gs = front ++ g :: back ∧ f g = xs ++ x :: ys ∧
      as = front.flatMap f ++ xs ∧ bs = ys ++ back.flatMap f := by
  rw [List.flatMap_def] at h
  obtain ⟨_, xs, ys, _, hgs, rfl, rfl⟩ := exists_of_flatten_eq h
  obtain ⟨front, _, rfl, rfl, htail⟩ := List.map_eq_append_iff.mp hgs
  obtain ⟨g, back, rfl, hg, rfl⟩ := List.map_eq_cons_iff.mp htail
  exact ⟨front, g, back, xs, ys, rfl, hg, rfl, rfl⟩

/-! ## Which of two comes first -/

variable {a b : α} {l r : List α}

theorem pair_sublist_append (h : [a, b].Sublist (l ++ r)) :
    [a, b].Sublist l ∨ (a ∈ l ∧ b ∈ r) ∨ [a, b].Sublist r := by
  obtain ⟨front, back, heq, hfront, hback⟩ := List.sublist_append_iff.mp h
  match front with
  | [] =>
    obtain rfl : [a, b] = back := heq
    exact .inr (.inr hback)
  | [_] =>
    obtain ⟨rfl, rfl⟩ := List.cons.inj heq
    exact .inr (.inl ⟨List.singleton_sublist.mp hfront, List.singleton_sublist.mp hback⟩)
  | _ :: _ :: rest =>
    obtain ⟨rfl, htail⟩ := List.cons.inj heq
    obtain ⟨rfl, hnil⟩ := List.cons.inj htail
    obtain ⟨rfl, -⟩ := List.append_eq_nil_iff.mp hnil.symm
    exact .inl hfront

theorem pair_sublist_of_mem (ha : a ∈ l) (hb : b ∈ r) : [a, b].Sublist (l ++ r) :=
  (List.singleton_sublist.mpr ha).append (List.singleton_sublist.mpr hb)

/-- In an ascending row the smaller of two elements comes first. -/
theorem pair_sublist_of_lt [Preorder α] (h : l.Pairwise (· < ·)) (ha : a ∈ l) (hb : b ∈ l)
    (hlt : a < b) : [a, b].Sublist l := by
  obtain ⟨front, back, rfl⟩ := List.append_of_mem ha
  obtain ⟨-, -, hfront⟩ := List.pairwise_append.mp h
  refine (List.Sublist.cons_cons a (List.singleton_sublist.mpr ?_)).trans
    (List.sublist_append_right front _)
  rcases List.mem_append.mp hb with hb | hb
  · exact absurd (hfront b hb a List.mem_cons_self) (lt_asymm hlt)
  · exact (List.mem_cons.mp hb).resolve_left hlt.ne'

/-- In a row without repetitions two elements come in one order only. -/
theorem pair_sublist_antisymm (h : l.Nodup) (hab : [a, b].Sublist l) (hba : [b, a].Sublist l) :
    a = b := by
  induction l with
  | nil => cases hab
  | cons x l ih =>
    obtain ⟨hx, hl⟩ := List.nodup_cons.mp h
    cases hab with
    | cons_cons _ hb =>
      cases hba with
      | cons_cons _ _ => rfl
      | cons _ hba => exact absurd (hba.subset (by simp)) hx
    | cons _ hab =>
      cases hba with
      | cons_cons _ _ => exact absurd (hab.subset (by simp)) hx
      | cons _ hba => exact ih hl hab hba

/-- An order of numbers in which each comes before the greater ones is their own order. -/
theorem eq_range_of_pair_sublist {order : List Nat} {n : Nat} (h : order.Perm (List.range n))
    (hpairs : ∀ i j, i < j → j < n → [i, j].Sublist order) : order = List.range n := by
  have hnodup : order.Nodup := h.nodup_iff.mpr List.nodup_range
  have horder : order.Pairwise fun i j => [i, j].Sublist order :=
    List.pairwise_iff_forall_sublist.mpr fun hij => hij
  have hrange : (List.range n).Pairwise fun i j => [i, j].Sublist order :=
    List.pairwise_lt_range.imp_of_mem fun _ hj hlt => hpairs _ _ hlt (List.mem_range.mp hj)
  exact List.Perm.eq_of_pairwise (fun _ _ _ _ => pair_sublist_antisymm hnodup) horder hrange h

end MarkupTransfer
