import MarkupTransfer.Projection.Transfer
/-!
# Carrying tags over in place

A translation can be changed in place, one step after the other: the pairs of the alignment are
taken up and checked one by one, then the tags are put in, and then the spaces are settled. An error
ends the steps wherever it arises, and leaves the translation as the steps before it have made it.
-/

namespace MarkupTransfer

namespace Reach

/-- The range of a word that reaches one more target word. -/
def widen (target : Nat) : Option (Nat × Nat) → Nat × Nat
  | none => (target, target)
  | some (low, high) => (min low target, max high target)

/-- The reach of words that are not aligned. -/
def blank (sourceCount targetCount : Nat) : Reach :=
  ⟨List.replicate sourceCount none, targetCount⟩

/-- Let a source word reach one more target word. -/
def extend (r : Reach) (source target : Nat) : Reach :=
  { r with words := r.words.modify source fun w => some (widen target w) }

/-- Take up pairs one by one. The first that names a word which is not there is an error. -/
def takeUp (r : Reach) : List (Nat × Nat) → Except ProjectionError Reach
  | [] => .ok r
  | (s, t) :: rest =>
    if r.sourceCount ≤ s || r.targetCount ≤ t then
      .error (.alignmentOutOfRange s t r.sourceCount r.targetCount)
    else (r.extend s t).takeUp rest

end Reach

namespace Translation

/-- Put the tags of its source into a translation, in place. -/
def projectInPlace (policy : UnalignedPolicy) : EStateM ProjectionError Translation Unit := do
  match (← get).source with
  | none => throw .missingSource
  | some source =>
    if source.tags.isEmpty then return
    if source.words.isEmpty then
      modify fun t => t.withTags (Sentence.sortTags source.tags)
      return
    if (← get).alignment.isEmpty then return
    let t ← get
    match (Reach.blank source.words.length t.sentence.words.length).takeUp t.alignment.toList with
    | .error e => throw e
    | .ok reach =>
      modify fun t => t.withTags (projectedTags policy source reach)
      modify fun t => { t with sentence := t.sentence.settle }

end Translation

end MarkupTransfer
