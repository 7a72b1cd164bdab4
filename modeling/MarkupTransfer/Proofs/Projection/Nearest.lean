import Mathlib.Order.Bounds.Basic
import MarkupTransfer.Proofs.Projection.Failure
/-!
# The closest aligned word

Looking one word further on either side at a time, the first aligned word that is met is the closest
one, and no word of the sentence is out of sight. So if anything is aligned at all, every place
lands next to an aligned word.

* `Reach.word?_eq_some_iff`: what a word reaches is the least and the greatest of its targets.
* `Alignment.IsClosest`: the closest aligned word; `IsClosest.eq`: there is one only.
* `Reach.nearest?_closest`: where a place lands.
-/

namespace MarkupTransfer

namespace Alignment

/-- An aligned source word that no aligned word is closer to a place than. A word on the right is
preferred to one as far on the left. -/
structure IsClosest (a : Alignment) (place s : Nat) : Prop where
  aligned : ∃ t, (s, t) ∈ a.toList
  closest : ∀ p ∈ a.toList, Reach.distance place s ≤ Reach.distance place p.1
  right_first : s < place → ∀ p ∈ a.toList, place ≤ p.1 →
    Reach.distance place s < Reach.distance place p.1

/-- A target place next to what is aligned to a source word: before the first of it if the word is
on the right of a place, and behind the last of it if the word is on the left. -/
def IsBeside (a : Alignment) (place s x : Nat) : Prop :=
  place ≤ s ∧ IsLeast {t | (s, t) ∈ a.toList} x ∨
    s < place ∧ ∃ last, IsGreatest {t | (s, t) ∈ a.toList} last ∧ x = last + 1

variable {a : Alignment} {place s s' : Nat}

/-- **There is one closest aligned word at most.** -/
theorem IsClosest.eq (h : a.IsClosest place s) (h' : a.IsClosest place s') : s = s' := by
  obtain ⟨t, ht⟩ := h.aligned
  obtain ⟨t', ht'⟩ := h'.aligned
  have hle := h.closest _ ht'
  have hge := h'.closest _ ht
  have hright := fun hlt => h.right_first hlt _ ht'
  have hright' := fun hlt => h'.right_first hlt _ ht
  simp only [Reach.distance] at hle hge hright hright'
  -- On one side of the place two words with one distance are one.
  rcases Nat.lt_or_ge s place with hs | hs <;> rcases Nat.lt_or_ge s' place with hs' | hs'
  · rw [if_neg (by omega), if_neg (by omega)] at hle hge
    omega
  · have := hright hs hs'
    omega
  · have := hright' hs' hs
    omega
  · rw [if_pos hs, if_pos hs'] at hle hge
    omega

end Alignment

namespace Reach

variable {r : Reach} {a : Alignment} {sourceCount targetCount : Nat}

/-- **What a word reaches** is the least and the greatest of its targets. -/
theorem word?_eq_some_iff (h : ofAlignment a sourceCount targetCount = .ok r) {s : Nat}
    {w : Nat × Nat} : r.word? s = some w ↔
      IsLeast {t | (s, t) ∈ a.toList} w.1 ∧ IsGreatest {t | (s, t) ∈ a.toList} w.2 := by
  rw [word?_eq_extremes? h, extremes?_eq_some_iff]
  simp only [Alignment.mem_targetsOf]
  rfl

/-- A place lands beside the closest aligned word. -/
theorem exists_isClosest (h : ofAlignment a sourceCount targetCount = .ok r) {place x : Nat}
    (hx : r.nearest? place = some x) : ∃ s, a.IsClosest place s ∧ a.IsBeside place s x := by
  obtain ⟨s, w, hw, hside, hclosest⟩ := nearest?_eq_some hx
  have hword := (word?_eq_some_iff h).mp hw
  have hfar : ∀ p ∈ a.toList, distance place s ≤ distance place p.1 ∧
      (s < place → place ≤ p.1 → distance place s < distance place p.1) := by
    intro p hp
    obtain ⟨w', hw', -⟩ := exists_word?_of_mem h hp
    exact hclosest p.1 w' hw'
  refine ⟨s, ⟨⟨w.1, hword.1.1⟩, fun p hp => (hfar p hp).1,
    fun hlt p hp => (hfar p hp).2 hlt⟩, ?_⟩
  rcases hside with ⟨hright, rfl⟩ | ⟨hleft, rfl⟩
  · exact .inl ⟨hright, hword.1⟩
  · exact .inr ⟨hleft, w.2, hword.2, rfl⟩

/-- **Every place of a sentence lands beside the closest aligned word.** Whatever words are aligned,
as long as there is one and all of them are there, the search from a place ends with the aligned
word at the least distance, a word on the right before one as far on the left. The place lands in
front of the first target of the word if it is on the right, and behind the last one if it is on the
left; this is a place of the translation, and the share of the sentence is never fallen back on. -/
theorem nearest?_closest (haligned : a.toList ≠ [])
    (hrange : ∀ p ∈ a.toList, p.1 < sourceCount ∧ p.2 < targetCount) :
    ∃ r, ofAlignment a sourceCount targetCount = .ok r ∧
      (blank sourceCount targetCount).takeUp a.toList = .ok r ∧
      ∀ place ≤ sourceCount, ∃ s x, (∀ s', a.IsClosest place s' ↔ s' = s) ∧
        a.IsBeside place s x ∧ r.nearest? place = some x ∧ x ≤ targetCount ∧
        r.place .nearest place = x := by
  obtain ⟨r, hr⟩ : ∃ r, ofAlignment a sourceCount targetCount = .ok r :=
    ⟨_, ofAlignment_eq_ok_iff.mpr ⟨hrange, rfl⟩⟩
  refine ⟨r, hr, (takeUp_eq a).trans hr, fun place hplace => ?_⟩
  obtain ⟨p, hp⟩ := List.exists_mem_of_ne_nil _ haligned
  obtain ⟨w, hw, -⟩ := exists_word?_of_mem hr hp
  have hx := nearest?_eq_place hw (hplace.trans (sourceCount_eq hr).ge)
  obtain ⟨s, hclosest, hbeside⟩ := exists_isClosest hr hx
  refine ⟨s, r.place .nearest place, fun s' => ⟨fun h => h.eq hclosest, fun h => h ▸ hclosest⟩,
    hbeside, hx, ?_, rfl⟩
  rcases hbeside with ⟨-, hleast⟩ | ⟨-, last, hgreatest, hlast⟩
  · exact Nat.le_of_lt (hrange _ hleast.1).2
  · rw [hlast]
    exact (hrange _ hgreatest.1).2

/-- Five words for five, of which the third and the fourth are not aligned. -/
def gappedAlignment : Alignment := .ofPairs [(0, 0), (1, 2), (1, 1), (4, 4)]

theorem nearest?_closest_gappedAlignment :
    (gappedAlignment.toList ≠ [] ∧ ∀ p ∈ gappedAlignment.toList, p.1 < 5 ∧ p.2 < 5) ∧
      ∃ r, ofAlignment gappedAlignment 5 5 = .ok r ∧ r.nearest? 2 = some 3 ∧
        r.nearest? 3 = some 4 ∧ (∀ s, gappedAlignment.IsClosest 3 s ↔ s = 4) := by
  have haligned : gappedAlignment.toList ≠ [] := by decide
  have hrange : ∀ p ∈ gappedAlignment.toList, p.1 < 5 ∧ p.2 < 5 := by decide
  obtain ⟨r, hr, -, hplaces⟩ := nearest?_closest haligned hrange
  obtain rfl : r = ⟨[some (0, 0), some (1, 2), none, none, some (4, 4)], 5⟩ :=
    (Except.ok.inj hr).symm
  obtain ⟨s, x, hclosest, -⟩ := hplaces 3 (by decide)
  have hfour : gappedAlignment.IsClosest 3 4 := ⟨⟨4, by decide⟩, by decide, by decide⟩
  obtain rfl : 4 = s := (hclosest 4).mp hfour
  exact ⟨⟨haligned, hrange⟩, _, hr, by decide, by decide, hclosest⟩

end Reach

end MarkupTransfer
