/-!
# Sorted sets

A finite set kept as a list in strictly ascending order, so that two sets with the same members are
equal.

* `mem_ofList`: the members of a set built from a list are those of the list.
* `ext_toList`: sets with the same members are equal.
-/

namespace MarkupTransfer

/-- A list in strictly ascending order. -/
structure SortedSet (α : Type) (cmp : α → α → Ordering) where
  toList : List α
  ascending : toList.Pairwise fun a b => cmp a b = .lt

namespace SortedSet

variable {α : Type} {cmp : α → α → Ordering}

instance [DecidableEq α] : DecidableEq (SortedSet α cmp) := fun a b =>
  decidable_of_iff (a.toList = b.toList) <| by
    cases a
    cases b
    simp

/-- The set without members. -/
def empty : SortedSet α cmp := ⟨[], .nil⟩

/-- Put a value in its place in an ascending list. -/
def insertInto (cmp : α → α → Ordering) (a : α) : List α → List α
  | [] => [a]
  | b :: bs =>
    match cmp a b with
    | .lt => a :: b :: bs
    | .eq => b :: bs
    | .gt => b :: insertInto cmp a bs

theorem mem_insertInto [Std.LawfulEqCmp cmp] {a x : α} {xs : List α} :
    x ∈ insertInto cmp a xs ↔ x = a ∨ x ∈ xs := by
  induction xs with
  | nil => simp [insertInto]
  | cons b bs ih =>
    rw [insertInto]
    split
    · simp
    · next h =>
      have hab : a = b := Std.LawfulEqCmp.eq_of_compare h
      simp [hab]
    · simp only [List.mem_cons, ih]
      grind

theorem insertInto_ascending [Std.TransCmp cmp] [Std.LawfulEqCmp cmp] (a : α) {xs : List α}
    (h : xs.Pairwise fun a b => cmp a b = .lt) :
    (insertInto cmp a xs).Pairwise fun a b => cmp a b = .lt := by
  induction xs with
  | nil => simp [insertInto]
  | cons b bs ih =>
    obtain ⟨hb, hbs⟩ := List.pairwise_cons.mp h
    rw [insertInto]
    split
    · next hab =>
      refine List.pairwise_cons.mpr ⟨fun x hx => ?_, h⟩
      rcases List.mem_cons.mp hx with rfl | hx
      · exact hab
      · exact Std.TransCmp.lt_trans hab (hb x hx)
    · exact h
    · next hab =>
      refine List.pairwise_cons.mpr ⟨fun x hx => ?_, ih hbs⟩
      rcases mem_insertInto.mp hx with rfl | hx
      · exact Std.OrientedCmp.gt_iff_lt.mp hab
      · exact hb x hx

theorem eq_of_ascending [Std.TransCmp cmp] {xs ys : List α}
    (hx : xs.Pairwise fun a b => cmp a b = .lt) (hy : ys.Pairwise fun a b => cmp a b = .lt)
    (h : ∀ a, a ∈ xs ↔ a ∈ ys) : xs = ys := by
  have irrefl : ∀ a, cmp a a ≠ .lt := fun a ha => by
    have self : cmp a a = .eq := Std.ReflCmp.compare_self
    simp [self] at ha
  induction xs generalizing ys with
  | nil =>
    cases ys with
    | nil => rfl
    | cons b bs => simpa using (h b).mpr (by simp)
  | cons a as ih =>
    cases ys with
    | nil => simpa using (h a).mp (by simp)
    | cons b bs =>
      obtain ⟨ha, has⟩ := List.pairwise_cons.mp hx
      obtain ⟨hb, hbs⟩ := List.pairwise_cons.mp hy
      have hab : a = b := by
        rcases List.mem_cons.mp ((h a).mp (by simp)) with e | e
        · exact e
        · rcases List.mem_cons.mp ((h b).mpr (by simp)) with e' | e'
          · exact e'.symm
          · exact absurd (Std.TransCmp.lt_trans (ha b e') (hb a e)) (irrefl a)
      subst hab
      refine congrArg _ (ih has hbs fun x => ⟨fun hxa => ?_, fun hxb => ?_⟩)
      · rcases List.mem_cons.mp ((h x).mp (List.mem_cons_of_mem _ hxa)) with e | e
        · exact absurd (ha x hxa) (e ▸ irrefl x)
        · exact e
      · rcases List.mem_cons.mp ((h x).mpr (List.mem_cons_of_mem _ hxb)) with e | e
        · exact absurd (hb x hxb) (e ▸ irrefl x)
        · exact e

theorem ext_toList [Std.TransCmp cmp] {s t : SortedSet α cmp}
    (h : ∀ a, a ∈ s.toList ↔ a ∈ t.toList) : s = t := by
  cases s with
  | mk xs hx =>
    cases t with
    | mk ys hy =>
      have := eq_of_ascending hx hy h
      subst this
      rfl

variable [Std.TransCmp cmp] [Std.LawfulEqCmp cmp]

/-- The set with one more member. -/
def insert (s : SortedSet α cmp) (a : α) : SortedSet α cmp :=
  ⟨insertInto cmp a s.toList, insertInto_ascending a s.ascending⟩

/-- The set of the members of a list. -/
def ofList (xs : List α) : SortedSet α cmp := xs.foldr (fun a s => s.insert a) empty

theorem mem_ofList {x : α} {xs : List α} : x ∈ (ofList xs : SortedSet α cmp).toList ↔ x ∈ xs := by
  induction xs with
  | nil => simp [ofList, empty]
  | cons a xs ih =>
    have : (ofList (a :: xs) : SortedSet α cmp) = (ofList xs).insert a := rfl
    rw [this, insert, mem_insertInto, ih, List.mem_cons]

end SortedSet

end MarkupTransfer
