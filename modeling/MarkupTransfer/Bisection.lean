/-!
# Searching by halves

If a test holds up to some place of a row and nowhere behind it, the place can be found by halves:
the test is made in the middle, and says in which of the two halves the place lies.

* `bisect_eq`: the place is found.
* `take_cutByHalves`, `drop_cutByHalves`: what the row is cut into there.
* `eq_false_of_mem_dropWhile`: rows that can be searched so.
* `takeWhile_eq_filter`, `takeWhile_dropWhile_eq_filter`: what stands together in such a row.
-/

namespace MarkupTransfer

/-- The place between two others at which a test ceases to hold, looked for by halves. -/
def bisect (test : Nat → Bool) (low high : Nat) : Nat :=
  if low < high then
    if test ((low + high) / 2) then bisect test ((low + high) / 2 + 1) high
    else bisect test low ((low + high) / 2)
  else low
termination_by high - low

/-- The number of elements of a row in front of the place at which a test ceases to hold, looked for
by halves. -/
def cutByHalves {α : Type} (test : α → Bool) (row : List α) : Nat :=
  bisect (fun i => row[i]?.any test) 0 row.length

/-- **The place is found** if the test holds in front of it and nowhere behind. -/
theorem bisect_eq {test : Nat → Bool} {low high place : Nat} (hlow : low ≤ place)
    (hhigh : place ≤ high) (h : ∀ i, low ≤ i → i < high → (test i = true ↔ i < place)) :
    bisect test low high = place := by
  fun_induction bisect test low high with
  | case1 low high hlt htest ih =>
    have hmiddle := (h _ (by omega) (by omega)).mp htest
    exact ih hmiddle hhigh fun i hi => h i (by omega)
  | case2 low high hlt htest ih =>
    have hmiddle := mt (h _ (by omega) (by omega)).mpr htest
    exact ih hlow (by omega) fun i hi hlt => h i hi (by omega)
  | case3 low high hge => omega

variable {α : Type} {test : α → Bool} {row : List α}

theorem cutByHalves_append {front back : List α} (hfront : ∀ x ∈ front, test x = true)
    (hback : ∀ x ∈ back, test x = false) : cutByHalves test (front ++ back) = front.length := by
  refine bisect_eq (Nat.zero_le _) (by simp) fun i _ hi => ?_
  by_cases hlt : i < front.length
  · have htest := hfront _ (List.getElem_mem hlt)
    simp [List.getElem?_append_left hlt, hlt, htest]
  · have hge := Nat.le_of_not_lt hlt
    have hback' : i - front.length < back.length := by
      rw [List.length_append] at hi
      omega
    have htest := hback _ (List.getElem_mem hback')
    simp [List.getElem?_append_right hge, hback', hlt, htest]

theorem cutByHalves_eq (h : ∀ x ∈ row.dropWhile test, test x = false) :
    cutByHalves test row = (row.takeWhile test).length := by
  have hfront : ∀ x ∈ row.takeWhile test, test x = true := List.all_eq_true.mp List.all_takeWhile
  have hcut := cutByHalves_append hfront h
  rwa [List.takeWhile_append_dropWhile] at hcut

/-- In front of the place is what the test holds for, up to the first element that fails it. -/
theorem take_cutByHalves (h : ∀ x ∈ row.dropWhile test, test x = false) :
    row.take (cutByHalves test row) = row.takeWhile test := by
  rw [cutByHalves_eq h]
  exact (List.prefix_iff_eq_take.mp (List.takeWhile_prefix test)).symm

/-- Behind the place is the rest. -/
theorem drop_cutByHalves (h : ∀ x ∈ row.dropWhile test, test x = false) :
    row.drop (cutByHalves test row) = row.dropWhile test := by
  have hsplit : row.takeWhile test ++ row.dropWhile test = row := List.takeWhile_append_dropWhile
  rw [cutByHalves_eq h]
  exact (congrArg (List.drop _) hsplit.symm).trans List.drop_left

/-- The place is where the rest begins. -/
theorem getElem?_cutByHalves (h : ∀ x ∈ row.dropWhile test, test x = false) :
    row[cutByHalves test row]? = (row.dropWhile test).head? := by
  rw [← List.head?_drop, drop_cutByHalves h]

/-- In a row no element of which passes a test that one in front of it fails, the test fails for
everything behind the first that fails it. -/
theorem eq_false_of_mem_dropWhile (h : row.Pairwise fun x y => test y = true → test x = true) :
    ∀ x ∈ row.dropWhile test, test x = false := by
  induction row with
  | nil => simp
  | cons x row ih =>
    obtain ⟨hx, hrow⟩ := List.pairwise_cons.mp h
    cases htest : test x with
    | true =>
      rw [List.dropWhile_cons_of_pos htest]
      exact ih hrow
    | false =>
      rw [List.dropWhile_cons_of_neg (by simp [htest])]
      refine List.forall_mem_cons.mpr ⟨htest, fun y hy => ?_⟩
      cases hy' : test y with
      | false => rfl
      | true => simp [hx y hy hy'] at htest

/-- What a test holds for then stands in front. -/
theorem takeWhile_eq_filter (h : row.Pairwise fun x y => test y = true → test x = true) :
    row.takeWhile test = row.filter test := by
  have hfront : ∀ x ∈ row.takeWhile test, test x = true := List.all_eq_true.mp List.all_takeWhile
  have hback : (row.dropWhile test).filter test = [] :=
    List.filter_eq_nil_iff.mpr fun x hx => by simp [eq_false_of_mem_dropWhile h x hx]
  have hsplit : row.takeWhile test ++ row.dropWhile test = row := List.takeWhile_append_dropWhile
  calc row.takeWhile test
      = (row.takeWhile test).filter test := (List.filter_eq_self.mpr hfront).symm
    _ = (row.takeWhile test ++ row.dropWhile test).filter test := by
      rw [List.filter_append, hback, List.append_nil]
    _ = row.filter test := by rw [hsplit]

/-- Behind what comes before it, what a test holds for stands in front. -/
theorem takeWhile_dropWhile_eq_filter {before : α → Bool}
    (hapart : ∀ x ∈ row, before x = true → test x = false)
    (h : (row.dropWhile before).Pairwise fun x y => test y = true → test x = true) :
    (row.dropWhile before).takeWhile test = row.filter test := by
  have hfront : (row.takeWhile before).filter test = [] := by
    refine List.filter_eq_nil_iff.mpr fun x hx => ?_
    have hbefore := List.all_eq_true.mp List.all_takeWhile x hx
    simp [hapart x ((List.takeWhile_sublist before).subset hx) hbefore]
  have hsplit : row.takeWhile before ++ row.dropWhile before = row :=
    List.takeWhile_append_dropWhile
  calc (row.dropWhile before).takeWhile test
      = (row.dropWhile before).filter test := takeWhile_eq_filter h
    _ = (row.takeWhile before ++ row.dropWhile before).filter test := by
      rw [List.filter_append, hfront, List.nil_append]
    _ = row.filter test := by rw [hsplit]

end MarkupTransfer
