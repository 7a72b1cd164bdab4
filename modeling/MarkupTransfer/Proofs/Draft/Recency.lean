import Mathlib.Data.List.Sort
import MarkupTransfer.Proofs.Draft.Claims
import MarkupTransfer.Proofs.Rows
/-!
# The latest marks win

Whether a mark is accepted hangs on the later marks that are accepted themselves, so a mark that was
dropped stands in nobody's way. Marks may be equal, and the marks of one list are told apart by
their places in it.

* `Mark.exists_keeps`: the places of accepted marks, from the latest mark to the earliest.
* `Mark.sort_ascending`: sorting by start keeps marks that begin at one place in their order.
* `Mark.accepted_recency`: which marks are accepted, and in which order.
-/

namespace MarkupTransfer

namespace Range

/-- The bytes of a range. -/
instance : Membership Nat Range := ⟨fun r b => r.start ≤ b ∧ b < r.stop⟩

theorem mem_def {r : Range} {b : Nat} : b ∈ r ↔ r.start ≤ b ∧ b < r.stop := Iff.rfl

/-- Ranges meet just if a byte belongs to both of them. -/
theorem meets_iff {r q : Range} : r.Meets q ↔ ∃ b, b ∈ r ∧ b ∈ q := by
  constructor
  · intro h
    unfold Meets at h
    refine ⟨max r.start q.start, mem_def.mpr ?_, mem_def.mpr ?_⟩ <;> omega
  · rintro ⟨b, hr, hq⟩
    rw [mem_def] at hr hq
    unfold Meets
    omega

end Range

/-- Ranges in order can be searched by halves: those that end at a place or in front of it come
first. -/
theorem Claims.IsOrdered.lt_stop_of_mem_dropWhile {c : Claims} (h : c.IsOrdered) {n : Nat}
    {q : Range} (hq : q ∈ c.ranges.dropWhile fun q => q.stop ≤ n) : n < q.stop := by
  rcases h.dropWhile_cases n with hnil | ⟨first, rest, hcons, hlt, hrest⟩
  · rw [hnil] at hq
    cases hq
  · have hcovers := h.covers q ((mem_ranges_iff c n q).mpr (.inr hq))
    rw [hcons] at hq
    rcases List.mem_cons.mp hq with rfl | hq
    · exact hlt
    · have := hrest q hq
      omega

namespace Mark

/-! ## Places of accepted marks -/

/-- A mark and the role it asks for, as a place of a list of marks has them. -/
def entry (ms : List Mark) (i : Fin ms.length) : Mark × Option Role := (ms[i], ms[i].role)

/-- The places of the marks that become tokens: `places` has a mark just if it asks for a token and
meets no later mark that `places` has. -/
structure Keeps (ms : List Mark) (places : List (Fin ms.length)) : Prop where
  entries_eq : (acceptAll ms).2.map (fun a => (a.mark, some a.role)) = places.map (entry ms)
  ascending : places.Pairwise (· < ·)
  mem_iff : ∀ i, i ∈ places ↔
    ms[i].role.isSome = true ∧ ∀ j ∈ places, i < j → ¬ ms[i].range.Meets ms[j].range

/-- A range overlaps what later marks claim just if it meets one of those that are kept. -/
theorem Keeps.overlaps_iff {ms : List Mark} {places : List (Fin ms.length)} (h : Keeps ms places)
    (r : Range) :
    (acceptAll ms).1.overlaps r = true ↔ ∃ j ∈ places, r.Meets ms[j].range := by
  have hmarks : (acceptAll ms).2.map Accepted.mark = places.map fun j => ms[j] := by
    simpa [entry, Function.comp_def] using congrArg (List.map Prod.fst) h.entries_eq
  rw [overlaps_acceptAll_iff]
  constructor
  · rintro ⟨a, ha, hmeets⟩
    have hmem : a.mark ∈ (acceptAll ms).2.map Accepted.mark := List.mem_map_of_mem ha
    rw [hmarks] at hmem
    obtain ⟨j, hj, heq⟩ := List.mem_map.mp hmem
    exact ⟨j, hj, by rwa [heq]⟩
  · rintro ⟨j, hj, hmeets⟩
    have hmem : ms[j] ∈ places.map fun j => ms[j] := List.mem_map_of_mem hj
    rw [← hmarks] at hmem
    obtain ⟨a, ha, heq⟩ := List.mem_map.mp hmem
    exact ⟨a, ha, by rwa [heq]⟩

/-- Whether a place of a list with one more mark in front is kept is settled by the later marks. -/
theorem Keeps.mem_cons_iff {m : Mark} {later : List Mark} {places : List (Fin later.length)}
    (h : Keeps later places) {places' : List (Fin (m :: later).length)}
    (hsucc : ∀ j : Fin later.length, j.succ ∈ places' ↔ j ∈ places)
    (hzero : (⟨0, Nat.succ_pos _⟩ : Fin (m :: later).length) ∈ places' ↔
      m.role.isSome = true ∧ ∀ j ∈ places, ¬ m.range.Meets later[j].range)
    (i : Fin (m :: later).length) :
    i ∈ places' ↔ (m :: later)[i].role.isSome = true ∧
      ∀ j ∈ places', i < j → ¬ (m :: later)[i].range.Meets (m :: later)[j].range := by
  cases i using Fin.cases with
  | zero =>
    refine hzero.trans (and_congr_right fun _ => ⟨fun hfree j hj hlt => ?_, fun hfree j hj => ?_⟩)
    · cases j using Fin.cases with
      | zero => exact absurd hlt (lt_irrefl _)
      | succ j => exact hfree j ((hsucc j).mp hj)
    · exact hfree j.succ ((hsucc j).mpr hj) (Fin.succ_pos j)
  | succ i =>
    rw [hsucc, h.mem_iff]
    refine and_congr_right fun _ => ⟨fun hfree j hj hlt => ?_, fun hfree j hj hlt => ?_⟩
    · cases j using Fin.cases with
      | zero => exact absurd hlt (Fin.not_lt_zero _)
      | succ j => exact hfree j ((hsucc j).mp hj) (Fin.succ_lt_succ_iff.mp hlt)
    · exact hfree j.succ ((hsucc j).mpr hj) (Fin.succ_lt_succ_iff.mpr hlt)

/-- **Every list of marks has places that are kept.** -/
theorem exists_keeps (ms : List Mark) : ∃ places, Keeps ms places := by
  induction ms with
  | nil => exact ⟨[], rfl, .nil, fun i => i.elim0⟩
  | cons m later ih =>
    obtain ⟨places, h⟩ := ih
    have hascending : (places.map Fin.succ).Pairwise (· < ·) :=
      List.pairwise_map.mpr (h.ascending.imp Fin.succ_lt_succ_iff.mpr)
    have hdropped : acceptAll (m :: later) = acceptAll later →
        ¬ (m.role.isSome = true ∧ ∀ j ∈ places, ¬ m.range.Meets later[j].range) →
        Keeps (m :: later) (places.map Fin.succ) := by
      intro hdrop hout
      refine ⟨?_, hascending, h.mem_cons_iff (by simp) (iff_of_false ?_ hout)⟩
      · rw [hdrop, h.entries_eq, List.map_map]
        rfl
      · intro hmem
        obtain ⟨j, -, hj⟩ := List.mem_map.mp hmem
        exact Fin.succ_ne_zero j hj
    rcases acceptAll_cons_cases m later with ⟨hrole, hdrop⟩ | ⟨role, hrole, ho, hdrop⟩ |
      ⟨role, hrole, ho, htake⟩
    · exact ⟨_, hdropped hdrop fun hout => by simp [hrole] at hout⟩
    · obtain ⟨j, hj, hmeets⟩ := (h.overlaps_iff _).mp ho
      exact ⟨_, hdropped hdrop fun hout => hout.2 j hj hmeets⟩
    · refine ⟨⟨0, Nat.succ_pos _⟩ :: places.map Fin.succ, ?_, ?_, h.mem_cons_iff ?_ ?_⟩
      · rw [htake, List.map_cons, List.map_cons, h.entries_eq, List.map_map, ← hrole]
        rfl
      · refine List.pairwise_cons.mpr ⟨fun j hj => ?_, hascending⟩
        obtain ⟨j, -, rfl⟩ := List.mem_map.mp hj
        exact Fin.succ_pos j
      · intro j
        refine (List.mem_cons.trans (or_iff_right (Fin.succ_ne_zero j))).trans ?_
        simp
      · refine iff_of_true List.mem_cons_self ⟨by simp [hrole], fun j hj hmeets => ?_⟩
        have := (h.overlaps_iff _).mpr ⟨j, hj, hmeets⟩
        simp [ho] at this

/-! ## In the order of the source -/

/-- **Sorting by start keeps the places of marks that begin together in order.** -/
theorem sort_ascending {ms : List Mark} {places : List (Fin ms.length)}
    (h : places.Pairwise (· < ·)) :
    (places.mergeSort fun i j => decide (ms[i].start ≤ ms[j].start)).Pairwise fun i j =>
      ms[i].start < ms[j].start ∨ ms[i].start = ms[j].start ∧ i < j := by
  have htrans : ∀ i j k : Fin ms.length, decide (ms[i].start ≤ ms[j].start) = true →
      decide (ms[j].start ≤ ms[k].start) = true → decide (ms[i].start ≤ ms[k].start) = true :=
    fun i j k => by simpa using Nat.le_trans
  have htotal : ∀ i j : Fin ms.length,
      (decide (ms[i].start ≤ ms[j].start) || decide (ms[j].start ≤ ms[i].start)) = true :=
    fun i j => by simpa using Nat.le_total _ _
  have hnodup : places.Nodup := h.imp ne_of_lt
  rw [List.pairwise_iff_forall_sublist]
  intro i j hij
  have hle := List.pairwise_iff_forall_sublist.mp (List.pairwise_mergeSort htrans htotal places) hij
  rw [decide_eq_true_eq] at hle
  have hne : i ≠ j := by
    have := (List.Nodup.mergeSort hnodup).sublist hij
    simpa using this
  refine (Nat.lt_or_eq_of_le hle).imp_right fun heq => ⟨heq, ?_⟩
  -- Were the later place in front in the list, sorting would have kept it in front.
  by_contra hlt
  have hmem : ∀ k ∈ [i, j], k ∈ places := fun k hk => List.mem_mergeSort.mp (hij.subset hk)
  have hji : [j, i].Sublist places :=
    pair_sublist_of_lt h (hmem j (by simp)) (hmem i (by simp))
      (lt_of_le_of_ne (not_lt.mp hlt) hne.symm)
  exact hne (pair_sublist_antisymm (List.Nodup.mergeSort hnodup) hij
    (List.pair_sublist_mergeSort htrans htotal (decide_eq_true heq.ge) hji))

/-- Marks without a role change nothing for the others. -/
theorem acceptAll_filter_role (ms : List Mark) :
    acceptAll (ms.filter fun m => m.role.isSome) = acceptAll ms := by
  induction ms with
  | nil => rfl
  | cons m later ih =>
    cases hrole : m.role with
    | none =>
      rw [List.filter_cons_of_neg (by simp [hrole]), ih]
      simp [acceptAll, hrole]
    | some role =>
      rw [List.filter_cons_of_pos (by simp [hrole]), acceptAll, acceptAll, ih]

/-- **Marks are accepted by recency.** The accepted marks are those at the places `kept`: a place is
kept just if its mark asks for a token and shares no byte with the mark at a later place that is
kept. They come by their start, and by their place where they begin together. So no byte belongs to
two of them, a mark that asks for a token and is not kept shares a byte with a later one that is
kept, and marks that ask for none have no part in it. Whenever the claimed ranges are searched for a
place, those that end in front of it stand together. -/
theorem accepted_recency (ms : List Mark) :
    ∃ kept : List (Fin ms.length),
      (accepted ms).map (fun a => (a.mark, some a.role)) = kept.map (entry ms) ∧
      (∀ i, i ∈ kept ↔ ms[i].role.isSome = true ∧
        ∀ j ∈ kept, i < j → ¬ ∃ b, b ∈ ms[i].range ∧ b ∈ ms[j].range) ∧
      kept.Pairwise (fun i j =>
        ms[i].start < ms[j].start ∨ ms[i].start = ms[j].start ∧ i < j) ∧
      (∀ i ∈ kept, ∀ j ∈ kept, ∀ b, b ∈ ms[i].range → b ∈ ms[j].range → i = j) ∧
      (∀ i, ms[i].role.isSome = true → i ∉ kept →
        ∃ j ∈ kept, i < j ∧ ∃ b, b ∈ ms[i].range ∧ b ∈ ms[j].range) ∧
      accepted (ms.filter fun m => m.role.isSome) = accepted ms ∧
      ∀ later n, later <:+ ms →
        ∀ q ∈ (acceptAll later).1.ranges.dropWhile fun q => q.stop ≤ n, n < q.stop := by
  obtain ⟨places, h⟩ := exists_keeps ms
  have hiff : ∀ i, i ∈ (places.mergeSort fun i j => decide (ms[i].start ≤ ms[j].start)) ↔
      ms[i].role.isSome = true ∧
      ∀ j ∈ places.mergeSort fun i j => decide (ms[i].start ≤ ms[j].start), i < j →
        ¬ ∃ b, b ∈ ms[i].range ∧ b ∈ ms[j].range := by
    intro i
    simp only [List.mem_mergeSort, ← Range.meets_iff]
    exact h.mem_iff i
  refine ⟨_, ?_, hiff, sort_ascending h.ascending, ?_, ?_, ?_, ?_⟩
  · -- Sorting the accepted marks is sorting their places.
    rw [accepted,
      List.map_mergeSort (r := fun a b : Accepted => decide (a.mark.start ≤ b.mark.start))
        (s := fun p q : Mark × Option Role => decide (p.1.start ≤ q.1.start)) fun _ _ _ _ => rfl,
      List.map_mergeSort (r := fun i j : Fin ms.length => decide (ms[i].start ≤ ms[j].start))
        (s := fun p q : Mark × Option Role => decide (p.1.start ≤ q.1.start)) fun _ _ _ _ => rfl,
      h.entries_eq]
  · intro i hi j hj b hbi hbj
    rcases lt_trichotomy i j with hlt | rfl | hlt
    · exact absurd ⟨b, hbi, hbj⟩ (((hiff i).mp hi).2 j hj hlt)
    · rfl
    · exact absurd ⟨b, hbj, hbi⟩ (((hiff j).mp hj).2 i hi hlt)
  · intro i hrole hi
    by_contra hfree
    exact hi ((hiff i).mpr ⟨hrole, fun j hj hlt hb => hfree ⟨j, hj, hlt, hb⟩⟩)
  · rw [accepted, acceptAll_filter_role, accepted]
  · exact fun later n _ q hq => (acceptAll_isOrdered later).lt_stop_of_mem_dropWhile hq

end Mark

end MarkupTransfer
