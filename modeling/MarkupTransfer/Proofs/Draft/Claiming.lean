import Mathlib.Data.List.Induction
import MarkupTransfer.Proofs.Draft.Recency
/-!
# Claims in any order

A range is claimed only if it overlaps nothing that is claimed already. So the ranges that have been
claimed share no bytes, whichever of them came first, and as they are kept in ascending order
nothing is left of the order in which they came.

* `IsOrdered.overlapsByHalves_eq`, `IsOrdered.claimByHalves_eq`: searching claims by halves finds
  what is found by going through them.
* `Made.isOrdered`, `Made.ranges_perm`: what one claim after the other leads to.
* `exists_made_iff`: which ranges can be claimed one after the other.
* `overlaps_of_made`: a range overlaps the claims just if it shares a byte with one of them, in
  whichever order they were made.
-/

namespace MarkupTransfer.Claims

variable {c d : Claims} {r : Range} {made other : List Range}

/-! ## By halves -/

/-- Ordered claims can be searched by halves. -/
theorem IsOrdered.not_le_of_mem_dropWhile (h : c.IsOrdered) (offset : Nat) :
    ∀ q ∈ c.ranges.dropWhile fun q => decide (q.stop ≤ offset), decide (q.stop ≤ offset) = false :=
  fun _ hq => decide_eq_false (Nat.not_le.mpr (h.lt_stop_of_mem_dropWhile hq))

theorem IsOrdered.overlapsByHalves_eq (h : c.IsOrdered) (r : Range) :
    c.overlapsByHalves r = c.overlaps r := by
  rw [overlapsByHalves, endingBefore, getElem?_cutByHalves (h.not_le_of_mem_dropWhile r.start),
    overlaps]
  cases c.ranges.dropWhile fun q => decide (q.stop ≤ r.start) <;> rfl

theorem IsOrdered.claimByHalves_eq (h : c.IsOrdered) (r : Range) :
    c.claimByHalves r = c.claim r := by
  rw [claimByHalves, endingBefore, take_cutByHalves (h.not_le_of_mem_dropWhile r.start),
    drop_cutByHalves (h.not_le_of_mem_dropWhile r.start), Claims.claim]

/-! ## One claim after the other -/

/-- Ranges that were claimed one after the other, each when it overlapped nothing claimed before,
and the claims that this led to. -/
inductive Made : List Range → Claims → Prop
  | empty : Made [] empty
  | claim {made : List Range} {c : Claims} {r : Range} (hmade : Made made c)
      (hfree : c.overlaps r = false) : Made (made ++ [r]) (c.claim r)

theorem Made.isOrdered (h : Made made c) : c.IsOrdered := by
  induction h with
  | empty => exact isOrdered_empty
  | claim _ hfree ih => exact ih.claim hfree

/-- Claiming a range puts it in among the others, if it has bytes. -/
theorem ranges_claim_perm (c : Claims) (r : Range) :
    (c.claim r).ranges.Perm (c.ranges ++ [r].filter fun r => decide (r.start < r.stop)) := by
  rw [claim]
  split
  · next hempty =>
    have hnone : ¬ r.start < r.stop := by simpa [Range.isEmpty] using hempty
    simp [hnone]
  · next hempty =>
    have hbytes : r.start < r.stop := by simpa [Range.isEmpty] using hempty
    have hsplit : (c.ranges.takeWhile fun q => decide (q.stop ≤ r.start)) ++
        (c.ranges.dropWhile fun q => decide (q.stop ≤ r.start)) = c.ranges :=
      List.takeWhile_append_dropWhile
    have hmiddle := List.perm_middle.trans (.of_eq (congrArg (r :: ·) hsplit))
    simpa [hbytes] using hmiddle.trans (List.perm_append_singleton r c.ranges).symm

/-- **The claims are the ranges that were claimed**, but for those without bytes. -/
theorem Made.ranges_perm (h : Made made c) :
    c.ranges.Perm (made.filter fun r => decide (r.start < r.stop)) := by
  induction h with
  | empty => exact .nil
  | @claim made c r _ _ ih =>
    rw [List.filter_append]
    exact (ranges_claim_perm c r).trans (ih.append_right _)

theorem Made.overlaps_iff (h : Made made c) (r : Range) :
    c.overlaps r = true ↔ ∃ q ∈ made, r.Meets q := by
  rw [h.isOrdered.overlaps_iff]
  refine exists_congr fun q => ?_
  rw [h.ranges_perm.mem_iff, List.mem_filter, decide_eq_true_eq]
  exact ⟨fun hq => ⟨hq.1.1, hq.2⟩, fun hq => ⟨⟨hq.1, hq.2.2.1⟩, hq.2⟩⟩

/-- What has been claimed shares no bytes. -/
theorem Made.apart (h : Made made c) : made.Pairwise fun r q => ¬ r.Meets q := by
  induction h with
  | empty => exact .nil
  | @claim made c r hmade hfree ih =>
    refine List.pairwise_append.mpr ⟨ih, List.pairwise_singleton _ _, fun q hq p hp hmeets => ?_⟩
    obtain rfl := List.mem_singleton.mp hp
    have := (hmade.overlaps_iff p).mpr ⟨q, hq, hmeets.symm⟩
    simp [hfree] at this

/-! ## In any order -/

/-- **Ranges can be claimed one after the other just if they share no bytes.** -/
theorem exists_made_iff : (∃ c, Made made c) ↔ made.Pairwise fun r q => ¬ r.Meets q := by
  refine ⟨fun ⟨_, h⟩ => h.apart, fun h => ?_⟩
  induction made using List.reverseRecOn with
  | nil => exact ⟨_, .empty⟩
  | append_singleton made r ih =>
    obtain ⟨hmade, -, hlast⟩ := List.pairwise_append.mp h
    obtain ⟨c, hc⟩ := ih hmade
    refine ⟨c.claim r, hc.claim (Bool.eq_false_iff.mpr fun hoverlaps => ?_)⟩
    obtain ⟨q, hq, hmeets⟩ := (hc.overlaps_iff r).mp hoverlaps
    exact hlast q hq r (List.mem_singleton_self r) hmeets.symm

/-- Ranges in order are known from what they are. -/
theorem IsOrdered.eq_of_perm (hc : c.IsOrdered) (hd : d.IsOrdered)
    (h : c.ranges.Perm d.ranges) : c = d := by
  obtain ⟨ranges⟩ := c
  obtain ⟨ranges'⟩ := d
  refine congrArg Claims.mk
    (List.Perm.eq_of_pairwise (fun p q hp hq hpq hqp => ?_) hc.apart hd.apart h)
  -- Of two ranges with bytes only one can end in front of the other.
  have := hc.covers p hp
  have := hd.covers q hq
  omega

/-- **The order of the claims leaves no trace.** -/
theorem Made.eq_of_perm (h : Made made c) (h' : Made other d) (hperm : other.Perm made) : d = c :=
  h'.isOrdered.eq_of_perm h.isOrdered
    (h'.ranges_perm.trans ((hperm.filter _).trans h.ranges_perm.symm))

theorem Made.of_perm (h : Made made c) (hperm : other.Perm made) : Made other c := by
  have hapart : other.Pairwise fun r q => ¬ r.Meets q :=
    (hperm.pairwise_iff fun hrq hqr => hrq hqr.symm).mpr h.apart
  obtain ⟨d, hd⟩ := exists_made_iff.mpr hapart
  rwa [← h.eq_of_perm hd hperm]

/-- **A range overlaps the claims just if it shares a byte with a claimed one.** Whichever ranges
have been claimed, each when it overlapped nothing claimed before, those with bytes are kept in
ascending order and apart, so that they can be searched by halves. The same ranges can be claimed in
any other order, and lead to the same claims. -/
theorem overlaps_of_made (h : Made made c) :
    (∀ q ∈ c.ranges, q.start < q.stop) ∧ (c.ranges.Pairwise fun p q => p.stop ≤ q.start) ∧
      c.ranges.Perm (made.filter fun r => decide (r.start < r.stop)) ∧
      (∀ r, c.overlaps r = true ↔ ∃ q ∈ made, ∃ b, b ∈ r ∧ b ∈ q) ∧
      (∀ r, c.overlapsByHalves r = c.overlaps r ∧ c.claimByHalves r = c.claim r) ∧
      ∀ other d, other.Perm made → (Made other d ↔ d = c) := by
  have hordered := h.isOrdered
  refine ⟨hordered.covers, hordered.apart, h.ranges_perm, fun r => ?_,
    fun r => ⟨hordered.overlapsByHalves_eq r, hordered.claimByHalves_eq r⟩,
    fun other d hperm => ⟨fun hd => h.eq_of_perm hd hperm, fun hd => hd ▸ h.of_perm hperm⟩⟩
  simp only [h.overlaps_iff, Range.meets_iff]

/-- Two ranges that touch, the one behind first, and a range without bytes inside it. -/
def touchingClaims : Claims := ((empty.claim ⟨5, 8⟩).claim ⟨2, 5⟩).claim ⟨6, 6⟩

theorem overlaps_of_made_touchingClaims :
    Made [⟨5, 8⟩, ⟨2, 5⟩, ⟨6, 6⟩] touchingClaims ∧ touchingClaims.ranges = [⟨2, 5⟩, ⟨5, 8⟩] ∧
      touchingClaims.overlaps ⟨7, 10⟩ = true ∧ touchingClaims.overlapsByHalves ⟨7, 10⟩ = true ∧
      touchingClaims.overlaps ⟨0, 2⟩ = false ∧
      Made [⟨6, 6⟩, ⟨2, 5⟩, ⟨5, 8⟩] touchingClaims := by
  have hmade : Made [⟨5, 8⟩, ⟨2, 5⟩, ⟨6, 6⟩] touchingClaims :=
    ((Made.empty.claim (by decide)).claim (by decide)).claim (by decide)
  obtain ⟨-, -, -, hoverlaps, hhalves, horder⟩ := overlaps_of_made hmade
  have hshared : touchingClaims.overlaps ⟨7, 10⟩ = true :=
    (hoverlaps ⟨7, 10⟩).mpr
      ⟨⟨5, 8⟩, by decide, 7, Range.mem_def.mpr (by decide), Range.mem_def.mpr (by decide)⟩
  refine ⟨hmade, by decide, hshared, (hhalves ⟨7, 10⟩).1.trans hshared, by decide, ?_⟩
  exact (horder [⟨6, 6⟩, ⟨2, 5⟩, ⟨5, 8⟩] touchingClaims (by decide)).mpr rfl

end MarkupTransfer.Claims
