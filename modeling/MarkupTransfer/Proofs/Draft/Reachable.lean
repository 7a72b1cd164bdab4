import Mathlib
import MarkupTransfer.Proofs.Draft.Rendering
/-!
# Drafts that edit sessions lead to

A draft of a text is reached by any number of edit sessions. In each of them any edits are asked
for; those turned down leave no trace, and the others are committed together. A session that is
given up leaves the draft as it was.

* `markup_of_reachable`: whatever the sessions did to the working text, a sentence built of such a
  draft is shown as a patchwork of the source, in which every part of the source stands once and in
  its place.
-/

namespace MarkupTransfer

namespace Session

/-- Add every edit that is not turned down. -/
def recordEach (s : Session) : List Edit → Session
  | [] => s
  | e :: rest =>
    match s.record e with
    | .ok s => s.recordEach rest
    | .error _ => s.recordEach rest

end Session

namespace Draft

/-- The drafts of a text that edit sessions lead to. -/
inductive Reachable (source : Text) : Draft → Prop
  | ofText : Reachable source (ofText source)
  | annotate {d : Draft} (name : Text) : Reachable source d → Reachable source (d.annotate name)
  | commit {d : Draft} (edits : List Edit) :
      Reachable source d → Reachable source (d.commit (d.edit.recordEach edits))

theorem source_apply (grown shrunk : Nat) (d : Draft) (ms : List Mark) :
    (d.apply grown shrunk ms).source = d.source := by
  induction ms generalizing grown shrunk d with
  | nil => rfl
  | cons m rest ih =>
    rw [apply]
    split <;> rw [ih]

theorem Reachable.source_eq {source : Text} {d : Draft} (h : Reachable source d) :
    d.source = some source := by
  induction h with
  | ofText => rfl
  | annotate name _ ih => exact ih
  | commit edits _ ih => rw [Draft.commit, source_apply, ih]

/-- **A sentence is determined by the source of its draft and the marks accepted.** It is shown as
what stands between the marks, decoded, and the marks in their own forms; and the parts so changed
are the source, cut up. -/
theorem markup_of_reachable {source : Text} {d : Draft} {options : Options} {s : Sentence}
    (h : Reachable source d) (habort : options.malformed = .abort)
    (hbuild : d.build options = .ok s) (hne : Mark.accepted d.marks ≠ [])
    (hcovers : ∀ a ∈ Mark.accepted d.marks, a.mark.start < a.mark.stop) :
    s.markup false =
        Accepted.patchwork Markup.unescape Accepted.form source 0 (Mark.accepted d.marks) ∧
      Accepted.patchwork (fun t => t) (fun _ t => t) source 0 (Mark.accepted d.marks) = source := by
  refine ⟨markup_build h.source_eq habort hbuild hne, ?_⟩
  rw [Accepted.patchwork_unchanged source (fun _ _ => Nat.zero_le _)
    (fun a ha => Nat.le_of_lt (hcovers a ha)) (Mark.accepted_pairwise hcovers), Text.slice_zero]

/-- A draft of `a<b>&amp; c`: the first session marks a tag and decodes a reference; the second one
marks two words, the last of them with a decoded reference in it, and is refused an edit. -/
def afterTwoSessions : Draft :=
  let first := (ofText "a<b>&amp; c".toList).commit
    ((ofText "a<b>&amp; c".toList).edit.recordEach
      [.token .xmlTag 1 3 (some [' ']), .replace 4 5 ['&']])
  first.commit
    (first.edit.recordEach [.token .word 0 1 none, .delete 1 1, .token .word 2 2 none])

theorem markup_of_reachable_afterTwoSessions :
    Reachable "a<b>&amp; c".toList afterTwoSessions ∧ Options.standard.malformed = .abort ∧
      Mark.accepted afterTwoSessions.marks ≠ [] ∧
      (∀ a ∈ Mark.accepted afterTwoSessions.marks, a.mark.start < a.mark.stop) ∧
      ∃ s, afterTwoSessions.build .standard = .ok s ∧ s.markup false = "a<b>&amp; c".toList := by
  have hreach : Reachable "a<b>&amp; c".toList afterTwoSessions := .commit _ (.commit _ .ofText)
  have hranges : (Mark.accepted afterTwoSessions.marks).map (fun a => (a.mark.start, a.mark.stop)) =
      [(0, 1), (1, 4), (4, 10)] := by cbv
  have hne : Mark.accepted afterTwoSessions.marks ≠ [] := fun h => by simp [h] at hranges
  have hcovers : ∀ a ∈ Mark.accepted afterTwoSessions.marks, a.mark.start < a.mark.stop := by
    intro a ha
    have := List.mem_map_of_mem (f := fun a : Accepted => (a.mark.start, a.mark.stop)) ha
    rw [hranges] at this
    simp only [List.mem_cons, Prod.mk.injEq, List.not_mem_nil, or_false] at this
    omega
  have hok : (afterTwoSessions.build .standard).toOption.isSome = true := by cbv
  obtain ⟨s, hs⟩ : ∃ s, afterTwoSessions.build .standard = .ok s := by
    cases h : afterTwoSessions.build .standard with
    | ok s => exact ⟨s, rfl⟩
    | error e => simp [h, Except.toOption] at hok
  refine ⟨hreach, rfl, hne, hcovers, s, hs, ?_⟩
  rw [(markup_of_reachable hreach rfl hs hne hcovers).1]
  cbv

end Draft

end MarkupTransfer
