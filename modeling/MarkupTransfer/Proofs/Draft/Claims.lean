import MarkupTransfer.Draft.Claims
/-!
# Accepted marks do not meet

Marks are accepted from the latest to the earliest, each one unless it shares a byte with a mark
accepted before. Claimed ranges are the bookkeeping of that test: they stay in order and apart
(`acceptAll_isOrdered`), and a range overlaps them just if it meets the range of an accepted mark
(`overlaps_acceptAll_iff`).

* `acceptAll_pairwise`: no byte belongs to two accepted marks.
* `exists_meets_of_mem`: a mark that would make a token meets an accepted one, if only itself.
* `acceptAll_append`: what is accepted of the later marks does not depend on the earlier ones.
* `mem_acceptAll_append`, `mem_acceptAll_of_length_le`: when no mark of some kind is dropped.
* `accepted_pairwise`: in the order of the source, accepted marks that cover something follow each
  other.
-/

namespace MarkupTransfer

namespace Range

/-- Two ranges meet if they share a byte. -/
def Meets (r q : Range) : Prop :=
  r.start < r.stop ∧ q.start < q.stop ∧ r.start < q.stop ∧ q.start < r.stop

theorem Meets.symm {r q : Range} (h : r.Meets q) : q.Meets r := ⟨h.2.1, h.1, h.2.2.2, h.2.2.1⟩

theorem meets_self {r : Range} (h : r.start < r.stop) : r.Meets r := ⟨h, h, h, h⟩

end Range

namespace Claims

/-- Claimed ranges cover something, follow each other and do not overlap. -/
structure IsOrdered (c : Claims) : Prop where
  covers : ∀ q ∈ c.ranges, q.start < q.stop
  apart : c.ranges.Pairwise fun p q => p.stop ≤ q.start

theorem isOrdered_empty : empty.IsOrdered := ⟨by simp [empty], .nil⟩

theorem stop_le_of_mem_takeWhile {c : Claims} {n : Nat} {q : Range}
    (h : q ∈ c.ranges.takeWhile fun q => q.stop ≤ n) : q.stop ≤ n := by
  simpa using List.all_eq_true.mp List.all_takeWhile q h

/-- The range found first behind a place is the only one that may begin before the place. -/
theorem IsOrdered.dropWhile_cases {c : Claims} (h : c.IsOrdered) (n : Nat) :
    (c.ranges.dropWhile fun q => q.stop ≤ n) = [] ∨
      ∃ q rest, (c.ranges.dropWhile fun q => q.stop ≤ n) = q :: rest ∧ n < q.stop ∧
        ∀ p ∈ rest, q.stop ≤ p.start := by
  cases hd : c.ranges.dropWhile fun q => q.stop ≤ n with
  | nil => exact .inl rfl
  | cons q rest =>
    refine .inr ⟨q, rest, rfl, ?_, ?_⟩
    · have := List.head?_dropWhile_not (fun q : Range => decide (q.stop ≤ n)) c.ranges
      rw [hd] at this
      simpa using this
    · have := h.apart.sublist (List.dropWhile_sublist fun q : Range => decide (q.stop ≤ n))
      rw [hd] at this
      exact (List.pairwise_cons.mp this).1

theorem mem_ranges_iff (c : Claims) (n : Nat) (q : Range) :
    q ∈ c.ranges ↔ q ∈ (c.ranges.takeWhile fun q => q.stop ≤ n) ∨
      q ∈ c.ranges.dropWhile fun q => q.stop ≤ n := by
  rw [← List.mem_append, List.takeWhile_append_dropWhile]

/-- **A range overlaps the claims just if it meets one of them.** -/
theorem IsOrdered.overlaps_iff {c : Claims} (h : c.IsOrdered) (r : Range) :
    c.overlaps r = true ↔ ∃ q ∈ c.ranges, r.Meets q := by
  by_cases hr : r.stop ≤ r.start
  · have : ¬ ∃ q ∈ c.ranges, r.Meets q := fun ⟨q, _, hm⟩ => by
      have := hm.1
      omega
    simp [overlaps, Range.isEmpty, hr, this]
  have hempty : r.isEmpty = false := by simp [Range.isEmpty, Nat.not_le.mp hr]
  rcases h.dropWhile_cases r.start with hd | ⟨q, rest, hd, hq, hrest⟩
  · simp only [overlaps, hempty, hd, Bool.not_false, Bool.true_and, Bool.false_eq_true, false_iff]
    rintro ⟨q, hmem, hm⟩
    rw [mem_ranges_iff c r.start, hd] at hmem
    have := stop_le_of_mem_takeWhile (hmem.resolve_right List.not_mem_nil)
    have := hm.2.2.1
    omega
  · simp only [overlaps, hempty, hd, Bool.not_false, Bool.true_and, decide_eq_true_eq]
    constructor
    · intro hlt
      have hmem : q ∈ c.ranges := (mem_ranges_iff c r.start q).mpr (.inr (by simp [hd]))
      exact ⟨q, hmem, by omega, h.covers q hmem, hq, hlt⟩
    · rintro ⟨p, hmem, hm⟩
      have hlt := hm.2.2.2
      rw [mem_ranges_iff c r.start, hd, List.mem_cons] at hmem
      rcases hmem with hp | rfl | hp
      · have := stop_le_of_mem_takeWhile hp
        have := hm.2.2.1
        omega
      · exact hlt
      · have := hrest p hp
        have := h.covers q ((mem_ranges_iff c r.start q).mpr (.inr (by simp [hd])))
        omega

theorem mem_claim {c : Claims} {r q : Range} :
    q ∈ (c.claim r).ranges ↔ q ∈ c.ranges ∨ q = r ∧ r.start < r.stop := by
  rw [claim]
  split
  · next he =>
    have : r.stop ≤ r.start := by simpa [Range.isEmpty] using he
    simp [Nat.not_lt.mpr this]
  · next he =>
    have : r.start < r.stop := by simpa [Range.isEmpty] using he
    rw [List.mem_append, List.mem_cons, mem_ranges_iff c r.start q]
    simp only [this, and_true]
    exact ⟨by rintro (h | h | h) <;> simp [h], by rintro ((h | h) | h) <;> simp [h]⟩

/-- Claiming a range that overlaps none keeps the claims in order. -/
theorem IsOrdered.claim {c : Claims} (h : c.IsOrdered) {r : Range} (hr : c.overlaps r = false) :
    (c.claim r).IsOrdered := by
  refine ⟨fun q hq => ?_, ?_⟩
  · rcases mem_claim.mp hq with hq | ⟨rfl, hq⟩
    · exact h.covers q hq
    · exact hq
  rw [Claims.claim]
  split
  · exact h.apart
  · next he =>
    have hpos : r.start < r.stop := by simpa [Range.isEmpty] using he
    have hfree : ∀ q ∈ c.ranges, ¬ r.Meets q := fun q hq hm => by
      have := (h.overlaps_iff r).mpr ⟨q, hq, hm⟩
      simp [hr] at this
    have hbehind : ∀ q ∈ c.ranges.dropWhile fun q => q.stop ≤ r.start, r.stop ≤ q.start := by
      intro q hq
      have hmem : q ∈ c.ranges := (List.dropWhile_sublist _).subset hq
      have hcov := h.covers q hmem
      have hstop : r.start < q.stop := by
        rcases h.dropWhile_cases r.start with hd | ⟨p, rest, hd, hp, hrest⟩
        · simp [hd] at hq
        · rw [hd, List.mem_cons] at hq
          rcases hq with rfl | hq
          · exact hp
          · have := hrest q hq
            omega
      have := hfree q hmem
      simp only [Range.Meets, not_and] at this
      have := this hpos hcov hstop
      omega
    refine List.pairwise_append.mpr ⟨h.apart.sublist (List.takeWhile_sublist _),
      List.pairwise_cons.mpr ⟨hbehind, h.apart.sublist (List.dropWhile_sublist _)⟩, ?_⟩
    intro p hp q hq
    have hstop := stop_le_of_mem_takeWhile hp
    rcases List.mem_cons.mp hq with rfl | hq
    · exact hstop
    · have := hbehind q hq
      omega

end Claims

namespace Mark

/-! ## From the latest mark to the earliest -/

/-- What becomes of a mark once the later ones are settled: it makes no token, it overlaps what they
claim, or it is accepted and claims its own range. -/
theorem acceptAll_cons_cases (m : Mark) (later : List Mark) :
    (m.role = none ∧ acceptAll (m :: later) = acceptAll later) ∨
      (∃ role, m.role = some role ∧ (acceptAll later).1.overlaps m.range = true ∧
        acceptAll (m :: later) = acceptAll later) ∨
      ∃ role, m.role = some role ∧ (acceptAll later).1.overlaps m.range = false ∧
        acceptAll (m :: later) =
          ((acceptAll later).1.claim m.range, ⟨m, role⟩ :: (acceptAll later).2) := by
  rw [acceptAll]
  cases hr : m.role with
  | none => exact .inl ⟨rfl, rfl⟩
  | some role =>
    cases ho : (acceptAll later).1.overlaps m.range with
    | true => exact .inr (.inl ⟨role, rfl, rfl, by simp [ho]⟩)
    | false => exact .inr (.inr ⟨role, rfl, rfl, by simp [ho]⟩)

theorem acceptAll_isOrdered (ms : List Mark) : (acceptAll ms).1.IsOrdered := by
  induction ms with
  | nil => exact Claims.isOrdered_empty
  | cons m later ih =>
    rcases acceptAll_cons_cases m later with ⟨-, h⟩ | ⟨_, -, -, h⟩ | ⟨_, -, ho, h⟩ <;> rw [h]
    · exact ih
    · exact ih
    · exact ih.claim ho

/-- The claimed ranges are those of the accepted marks that cover something. -/
theorem mem_ranges_acceptAll {ms : List Mark} {q : Range} :
    q ∈ (acceptAll ms).1.ranges ↔
      ∃ a ∈ (acceptAll ms).2, q = a.mark.range ∧ a.mark.start < a.mark.stop := by
  induction ms with
  | nil => simp [acceptAll, Claims.empty]
  | cons m later ih =>
    rcases acceptAll_cons_cases m later with ⟨-, h⟩ | ⟨_, -, -, h⟩ | ⟨_, -, -, h⟩ <;> rw [h]
    · exact ih
    · exact ih
    · simp only [Claims.mem_claim, ih, List.mem_cons, exists_eq_or_imp]
      exact or_comm

theorem overlaps_acceptAll_iff {ms : List Mark} {r : Range} :
    (acceptAll ms).1.overlaps r = true ↔ ∃ a ∈ (acceptAll ms).2, r.Meets a.mark.range := by
  rw [(acceptAll_isOrdered ms).overlaps_iff]
  constructor
  · rintro ⟨q, hq, hm⟩
    obtain ⟨a, ha, rfl, -⟩ := mem_ranges_acceptAll.mp hq
    exact ⟨a, ha, hm⟩
  · rintro ⟨a, ha, hm⟩
    exact ⟨a.mark.range, mem_ranges_acceptAll.mpr ⟨a, ha, rfl, hm.2.1⟩, hm⟩

/-- **No byte belongs to two accepted marks.** -/
theorem acceptAll_pairwise (ms : List Mark) :
    (acceptAll ms).2.Pairwise fun a b => ¬ a.mark.range.Meets b.mark.range := by
  induction ms with
  | nil => exact .nil
  | cons m later ih =>
    rcases acceptAll_cons_cases m later with ⟨-, h⟩ | ⟨_, -, -, h⟩ | ⟨_, -, ho, h⟩ <;> rw [h]
    · exact ih
    · exact ih
    · refine List.pairwise_cons.mpr ⟨fun b hb hm => ?_, ih⟩
      have := overlaps_acceptAll_iff.mpr ⟨b, hb, hm⟩
      simp [ho] at this

/-- Accepted marks are marks, each in the role it asked for, in the order in which they were
made. -/
theorem acceptAll_sublist (ms : List Mark) :
    ((acceptAll ms).2.map fun a => (a.mark, some a.role)).Sublist
      (ms.map fun m => (m, m.role)) := by
  induction ms with
  | nil => exact .slnil
  | cons m later ih =>
    rcases acceptAll_cons_cases m later with ⟨-, h⟩ | ⟨_, -, -, h⟩ | ⟨_, hr, -, h⟩ <;> rw [h]
    · exact ih.cons _
    · exact ih.cons _
    · simp only [List.map_cons, ← hr]
      exact ih.cons_cons _

/-- **A mark that would make a token meets an accepted one**, if only itself. -/
theorem exists_meets_of_mem {ms : List Mark} {m : Mark} (hm : m ∈ ms) (hr : m.role.isSome)
    (hc : m.start < m.stop) : ∃ a ∈ (acceptAll ms).2, m.range.Meets a.mark.range := by
  induction ms with
  | nil => simp at hm
  | cons n later ih =>
    rcases List.mem_cons.mp hm with rfl | hm
    · rcases acceptAll_cons_cases m later with ⟨hn, -⟩ | ⟨_, -, ho, h⟩ | ⟨role, -, -, h⟩
      · simp [hn] at hr
      · rw [h]
        exact overlaps_acceptAll_iff.mp ho
      · rw [h]
        exact ⟨⟨m, role⟩, by simp, Range.meets_self hc⟩
    · obtain ⟨a, ha, hma⟩ := ih hm
      refine ⟨a, ?_, hma⟩
      rcases acceptAll_cons_cases n later with ⟨-, h⟩ | ⟨_, -, -, h⟩ | ⟨_, -, -, h⟩ <;> rw [h]
      · exact ha
      · exact ha
      · exact List.mem_cons_of_mem _ ha

/-- What is accepted of later marks does not depend on earlier ones. -/
theorem acceptAll_append (ms later : List Mark) :
    ∃ front, (acceptAll (ms ++ later)).2 = front ++ (acceptAll later).2 := by
  induction ms with
  | nil => exact ⟨[], rfl⟩
  | cons m ms ih =>
    obtain ⟨front, hf⟩ := ih
    rcases acceptAll_cons_cases m (ms ++ later) with ⟨-, h⟩ | ⟨_, -, -, h⟩ | ⟨role, -, -, h⟩ <;>
      rw [List.cons_append, h]
    · exact ⟨front, hf⟩
    · exact ⟨front, hf⟩
    · exact ⟨⟨m, role⟩ :: front, by rw [hf, List.cons_append]⟩

theorem mem_of_mem_acceptAll {ms : List Mark} {a : Accepted} (h : a ∈ (acceptAll ms).2) :
    a.mark ∈ ms ∧ a.mark.role = some a.role := by
  have hmem := (acceptAll_sublist ms).subset (List.mem_map_of_mem h)
  obtain ⟨m, hm, heq⟩ := List.mem_map.mp hmem
  obtain ⟨rfl, hrole⟩ := Prod.mk.inj heq
  exact ⟨hm, hrole⟩

/-- Accepted marks that meet are one. -/
theorem eq_of_meets {ms : List Mark} {a b : Accepted} (ha : a ∈ (acceptAll ms).2)
    (hb : b ∈ (acceptAll ms).2) (h : a.mark.range.Meets b.mark.range) : a = b := by
  have hpairwise := acceptAll_pairwise ms
  have hflip : (acceptAll ms).2.Pairwise
      (flip fun a b => a.mark.range.Meets b.mark.range → a = b) :=
    hpairwise.imp fun hab hm => absurd hm.symm hab
  exact List.Pairwise.forall_of_forall_of_flip (fun _ _ _ => rfl)
    (hpairwise.imp fun hab hm => absurd hm hab) hflip ha hb h

/-- Marks that follow each other and meet are one. -/
theorem eq_of_meets_of_pairwise {ms : List Mark}
    (hapart : ms.Pairwise fun a b => a.stop ≤ b.start) {a b : Mark} (ha : a ∈ ms) (hb : b ∈ ms)
    (h : a.range.Meets b.range) : a = b := by
  have hflip : ms.Pairwise (flip fun a b : Mark => a.range.Meets b.range → a = b) :=
    hapart.imp fun hab hm => absurd hm.2.2.1 (Nat.not_lt.mpr hab)
  exact List.Pairwise.forall_of_forall_of_flip (fun _ _ _ => rfl)
    (hapart.imp fun hab hm => absurd hm.2.2.2 (Nat.not_lt.mpr hab)) hflip ha hb h

/-- A mark that would make a token meets an accepted one of the marks from some place on, if it is
one of them itself. -/
theorem exists_meets_of_mem_append (ms : List Mark) {later : List Mark} {m : Mark}
    (hm : m ∈ later) (hr : m.role.isSome) (hc : m.start < m.stop) :
    ∃ a ∈ (acceptAll (ms ++ later)).2, a.mark ∈ later ∧ m.range.Meets a.mark.range := by
  obtain ⟨front, hfront⟩ := acceptAll_append ms later
  obtain ⟨a, ha, hmeets⟩ := exists_meets_of_mem hm hr hc
  rw [hfront]
  exact ⟨a, List.mem_append_right front ha, (mem_of_mem_acceptAll ha).1, hmeets⟩

/-- **Of the last marks none is dropped** if they follow each other. -/
theorem mem_acceptAll_append {ms later : List Mark} {m : Mark} {role : Role} (hm : m ∈ later)
    (hrole : m.role = some role) (hcovers : ∀ m ∈ later, m.start < m.stop)
    (hapart : later.Pairwise fun a b => a.stop ≤ b.start) :
    ⟨m, role⟩ ∈ (acceptAll (ms ++ later)).2 := by
  obtain ⟨a, ha, hmem, hmeets⟩ :=
    exists_meets_of_mem_append ms hm (by simp [hrole]) (hcovers m hm)
  obtain rfl : m = a.mark := eq_of_meets_of_pairwise hapart hm hmem hmeets
  obtain rfl : a.role = role :=
    Option.some.inj ((mem_of_mem_acceptAll ha).2.symm.trans hrole)
  exact ha

/-- Of the marks in a role none is dropped if as many are accepted as there are. -/
theorem mem_acceptAll_of_length_le {ms : List Mark} {role : Role}
    (h : (ms.filter fun m => m.role = some role).length ≤
      ((acceptAll ms).2.filter fun a => a.role = role).length) {m : Mark} (hm : m ∈ ms)
    (hrole : m.role = some role) : ⟨m, role⟩ ∈ (acceptAll ms).2 := by
  have hsublist := (acceptAll_sublist ms).filter fun p => p.2 = some role
  have hlength : ((ms.map fun m => (m, m.role)).filter fun p => p.2 = some role).length ≤
      (((acceptAll ms).2.map fun a => (a.mark, some a.role)).filter
        fun p => p.2 = some role).length := by
    simpa [List.filter_map, Function.comp_def] using h
  have hmem : (m, some role) ∈ (ms.map fun m => (m, m.role)).filter fun p => p.2 = some role :=
    List.mem_filter.mpr ⟨List.mem_map.mpr ⟨m, hm, by rw [hrole]⟩, by simp⟩
  rw [← hsublist.eq_of_length_le hlength, List.mem_filter, List.mem_map] at hmem
  obtain ⟨⟨a, ha, heq⟩, -⟩ := hmem
  obtain ⟨rfl, harole⟩ := Prod.mk.inj heq
  obtain rfl := Option.some.inj harole
  exact ha

/-! ## In the order of the source -/

theorem accepted_perm (ms : List Mark) : (accepted ms).Perm (acceptAll ms).2 :=
  List.mergeSort_perm _ _

theorem mem_accepted {ms : List Mark} {a : Accepted} :
    a ∈ accepted ms ↔ a ∈ (acceptAll ms).2 :=
  (accepted_perm ms).mem_iff

theorem mem_of_mem_accepted {ms : List Mark} {a : Accepted} (h : a ∈ accepted ms) :
    a.mark ∈ ms ∧ a.mark.role = some a.role :=
  mem_of_mem_acceptAll (mem_accepted.mp h)

theorem accepted_ascending (ms : List Mark) :
    (accepted ms).Pairwise fun a b => a.mark.start ≤ b.mark.start := by
  have h : (accepted ms).Pairwise fun a b => decide (a.mark.start ≤ b.mark.start) = true :=
    List.pairwise_mergeSort (fun a b c => by simpa using Nat.le_trans)
      (fun a b => by simpa using Nat.le_total _ _) _
  simpa using h

theorem accepted_apart (ms : List Mark) :
    (accepted ms).Pairwise fun a b => ¬ a.mark.range.Meets b.mark.range :=
  ((accepted_perm ms).pairwise_iff fun h hm => h hm.symm).mpr (acceptAll_pairwise ms)

/-- **Accepted marks that cover something follow each other.** -/
theorem accepted_pairwise {ms : List Mark} (hc : ∀ a ∈ accepted ms, a.mark.start < a.mark.stop) :
    (accepted ms).Pairwise fun a b => a.mark.stop ≤ b.mark.start := by
  refine List.Pairwise.imp_of_mem ?_ ((accepted_apart ms).and (accepted_ascending ms))
  intro a b ha hb ⟨hab, hle⟩
  have hca := hc a ha
  have hcb := hc b hb
  simp only [Range.Meets, Mark.range, not_and] at hab
  have := hab hca hcb (by omega)
  omega

end Mark

end MarkupTransfer
