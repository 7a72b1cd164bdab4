import MarkupTransfer.Proofs.Draft.Commit
import MarkupTransfer.Proofs.Draft.Recency
/-!
# How accepted marks succeed each other

Accepted marks come in the order of their starts, and no byte belongs to two of them. So each one
ends where the next begins or in front of it, unless the next covers nothing: a mark that covers
nothing claims nothing, and it is accepted wherever it is, inside another mark too. What is left of
the source between marks belongs to none of them, as long as the mark in front of it does not stand
inside another one.

* `Accepted.StandsIn`: an accepted mark that covers nothing, inside another one.
* `Accepted.gapBetween`: what is left of the source at a place among marks.
* `Draft.accepted_succeed`: how accepted marks follow each other, and what is left between them.
-/

namespace MarkupTransfer

namespace Accepted

/-- Whether an accepted mark covers nothing and begins at a byte of another one. -/
def StandsIn (b a : Accepted) : Prop := b.mark.start = b.mark.stop ∧ b.mark.start ∈ a.mark.range

/-- The range of the source between the marks in front of a place and those behind it. -/
def gapBetween (source : Text) (before behind : List Accepted) : Range where
  start := (before.getLast?.map fun a => a.mark.stop).getD 0
  stop := (behind.head?.map fun a => a.mark.start).getD source.size

end Accepted

namespace Mark

open Accepted (StandsIn gapBetween)

/-- **An accepted mark ends in front of the next one**, unless that one stands inside it. -/
theorem stop_le_start_iff {a b : Accepted} (hapart : ¬ a.mark.range.Meets b.mark.range)
    (hascending : a.mark.start ≤ b.mark.start) (hb : b.mark.start ≤ b.mark.stop) :
    a.mark.stop ≤ b.mark.start ↔ ¬ b.StandsIn a := by
  have hmem : b.mark.start ∈ a.mark.range ↔ b.mark.start < a.mark.stop :=
    Range.mem_def.trans (and_iff_right hascending)
  rw [StandsIn, hmem]
  constructor
  · rintro hstop ⟨-, hlt⟩
    exact absurd hlt (Nat.not_lt.mpr hstop)
  · intro hout
    by_contra hlt
    rw [Nat.not_le] at hlt
    -- a mark that covers something would share its first byte
    have hcovers : b.mark.start < b.mark.stop := Nat.lt_of_le_of_ne hb fun heq => hout ⟨heq, hlt⟩
    exact hapart (Range.meets_iff.mpr ⟨b.mark.start, Range.mem_def.mpr ⟨hascending, hlt⟩,
      Range.mem_def.mpr ⟨Nat.le_refl _, hcovers⟩⟩)

section Gap

variable {source : Text} {before behind : List Accepted} {p : Nat}

theorem stop_le_of_mem_gapBetween
    (hfollow : before.Pairwise fun a b => a.mark.stop ≤ b.mark.start ↔ ¬ b.StandsIn a)
    (hcovers : ∀ a ∈ before, a.mark.start ≤ a.mark.stop)
    (hlast : ∀ a ∈ before.getLast?, ∀ c ∈ before, ¬ a.StandsIn c)
    (hp : p ∈ gapBetween source before behind) : ∀ c ∈ before, c.mark.stop ≤ p := by
  rcases List.eq_nil_or_concat' before with rfl | ⟨front, a, rfl⟩
  · nofun
  · have hstop : a.mark.stop ≤ p := by simpa [gapBetween] using hp.1
    have hin : ∀ c ∈ front ++ [a], ¬ a.StandsIn c := hlast a (by simp)
    intro c hc
    rcases List.mem_append.mp hc with hfront | hself
    · have hca := (List.pairwise_append.mp hfollow).2.2 c hfront a List.mem_cons_self
      exact ((hca.mpr (hin c hc)).trans (hcovers a (by simp))).trans hstop
    · obtain rfl := List.mem_singleton.mp hself
      exact hstop

theorem lt_start_of_mem_gapBetween
    (hascending : behind.Pairwise fun a b => a.mark.start ≤ b.mark.start)
    (hp : p ∈ gapBetween source before behind) : ∀ c ∈ behind, p < c.mark.start := by
  cases behind with
  | nil => nofun
  | cons b behind =>
    have hstart : p < b.mark.start := by simpa [gapBetween] using hp.2
    intro c hc
    rcases List.mem_cons.mp hc with rfl | hc
    · exact hstart
    · exact hstart.trans_le ((List.pairwise_cons.mp hascending).1 c hc)

end Gap

end Mark

namespace Draft

open Accepted (StandsIn gapBetween)

variable {source : Text} {d : Draft}

namespace Reachable

theorem start_le_stop (h : Reachable source d) {a : Accepted} (ha : a ∈ Mark.accepted d.marks) :
    a.mark.start ≤ a.mark.stop :=
  (h.isWoven.anchored a.mark (Mark.mem_of_mem_accepted ha).1).start_le_stop

theorem accepted_follow (h : Reachable source d) :
    (Mark.accepted d.marks).Pairwise fun a b => a.mark.stop ≤ b.mark.start ↔ ¬ b.StandsIn a :=
  List.Pairwise.imp_of_mem (fun _ hb hab => Mark.stop_le_start_iff hab.1 hab.2 (h.start_le_stop hb))
    ((Mark.accepted_apart d.marks).and (Mark.accepted_ascending d.marks))

/-- What is left at a place among the accepted marks belongs to none of them, unless the mark in
front of the place stands inside another one. -/
theorem not_mem_range_of_mem_gapBetween (h : Reachable source d) {before behind : List Accepted}
    (hrow : Mark.accepted d.marks = before ++ behind)
    (hlast : ∀ a ∈ before.getLast?, ∀ c ∈ before, ¬ a.StandsIn c) {p : Nat}
    (hp : p ∈ gapBetween source before behind) : ∀ c ∈ before ++ behind, p ∉ c.mark.range := by
  have hfollow := h.accepted_follow
  have hascending := Mark.accepted_ascending d.marks
  have hcovers : ∀ a ∈ before, a.mark.start ≤ a.mark.stop := fun a ha =>
    h.start_le_stop (hrow ▸ List.mem_append_left behind ha)
  rw [hrow] at hfollow hascending
  intro c hc hmem
  obtain ⟨hstart, hstop⟩ := Range.mem_def.mp hmem
  rcases List.mem_append.mp hc with hbefore | hbehind
  · have := Mark.stop_le_of_mem_gapBetween (List.pairwise_append.mp hfollow).1 hcovers hlast hp c
      hbefore
    exact absurd hstop (Nat.not_lt.mpr this)
  · have := Mark.lt_start_of_mem_gapBetween (List.pairwise_append.mp hascending).2.1 hp c hbehind
    exact absurd hstart (Nat.not_le.mpr this)

end Reachable

/-- **How accepted marks follow each other.** Take any draft that sessions have led to. Of two
accepted marks the one in front ends where the other begins or in front of it, unless the other
covers nothing and stands inside it. Nothing of the source that is left in front of the first mark,
between two neighbours or behind the last one belongs to an accepted mark, unless the mark in front
of it stands inside another one that comes earlier. -/
theorem accepted_succeed (h : Reachable source d) :
    (Mark.accepted d.marks).Pairwise
        (fun a b => a.mark.stop ≤ b.mark.start ↔ ¬ b.StandsIn a) ∧
      ∀ before behind, Mark.accepted d.marks = before ++ behind →
        (∀ a ∈ before.getLast?, ∀ c ∈ before, ¬ a.StandsIn c) →
          ∀ p ∈ gapBetween source before behind,
            ∀ c ∈ Mark.accepted d.marks, p ∉ c.mark.range := by
  refine ⟨h.accepted_follow, fun before behind hrow hlast p hp => ?_⟩
  rw [hrow]
  exact h.not_mem_range_of_mem_gapBetween hrow hlast hp

/-- A draft of `abc d e` whose session marks three words, and a place inside the first. -/
def markedInside : Draft :=
  (ofText "abc d e".toList).commit ((ofText "abc d e".toList).edit.recordEach
    [.token .word 0 3 none, .token .word 1 0 none, .token .word 4 1 none, .token .word 6 1 none])

theorem accepted_markedInside : Mark.accepted markedInside.marks =
    [⟨⟨0, 3, ['a', 'b', 'c'], none, some .word⟩, .word⟩, ⟨⟨1, 1, [], none, some .word⟩, .word⟩,
      ⟨⟨4, 5, ['d'], none, some .word⟩, .word⟩, ⟨⟨6, 7, ['e'], none, some .word⟩, .word⟩] := by
  cbv

theorem accepted_succeed_markedInside :
    Reachable "abc d e".toList markedInside ∧
      (∃ b ∈ Mark.accepted markedInside.marks, ∃ a ∈ Mark.accepted markedInside.marks,
        b.StandsIn a) ∧
      5 ∈ gapBetween "abc d e".toList ((Mark.accepted markedInside.marks).take 3)
        ((Mark.accepted markedInside.marks).drop 3) ∧
      ∀ c ∈ Mark.accepted markedInside.marks, 5 ∉ c.mark.range := by
  have hreach : Reachable "abc d e".toList markedInside := .commit _ .ofText
  have hgap : 5 ∈ gapBetween "abc d e".toList ((Mark.accepted markedInside.marks).take 3)
      ((Mark.accepted markedInside.marks).drop 3) := by
    rw [accepted_markedInside]
    exact Range.mem_def.mpr (by decide)
  refine ⟨hreach, ?_, hgap, ?_⟩
  · rw [accepted_markedInside]
    exact ⟨_, List.mem_cons_of_mem _ List.mem_cons_self, _, List.mem_cons_self, rfl,
      Range.mem_def.mpr (by decide)⟩
  · refine (accepted_succeed hreach).2 _ _ (List.take_append_drop 3 _).symm ?_ 5 hgap
    -- the third mark covers something, and so it stands in no other
    rw [accepted_markedInside]
    rintro a ha c - ⟨hempty, -⟩
    obtain rfl := Option.some.inj ha
    cases hempty

/-- A draft of `abc` whose session marks the word, and a place inside it. -/
def markedTwice : Draft :=
  (ofText "abc".toList).commit ((ofText "abc".toList).edit.recordEach
    [.token .word 0 3 none, .token .word 1 0 none])

/-- A mark inside another one is accepted, and the text behind it is shown a second time. -/
theorem accepted_overlap :
    Reachable "abc".toList markedTwice ∧
      (¬ (Mark.accepted markedTwice.marks).Pairwise fun a b => a.mark.stop ≤ b.mark.start) ∧
      ∃ s, markedTwice.build .standard = .ok s ∧ s.markup false = "abcbc".toList := by
  have haccepted : Mark.accepted markedTwice.marks =
      [⟨⟨0, 3, ['a', 'b', 'c'], none, some .word⟩, .word⟩,
        ⟨⟨1, 1, [], none, some .word⟩, .word⟩] := by cbv
  have hshown : (markedTwice.build .standard).toOption.map (fun s => s.markup false) =
      some "abcbc".toList := by cbv
  refine ⟨.commit _ .ofText, ?_, ?_⟩
  · rw [haccepted]
    decide
  · cases h : markedTwice.build .standard with
    | ok s => exact ⟨s, rfl, by simpa [h, Except.toOption] using hshown⟩
    | error e => simp [h, Except.toOption] at hshown

end Draft

end MarkupTransfer
