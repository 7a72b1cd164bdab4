import MarkupTransfer.Projection.SpanTree
/-!
# Carrying spans over with their bounds checked

A number can be moved between two bounds only if the bounds are in order. Here spans are carried
over with that check at every move, and there is no result if one of them fails.
-/

namespace MarkupTransfer

/-- The number nearest to a given one between two bounds, which must be in order. -/
def clamp? (lower upper n : Nat) : Option Nat :=
  if lower ≤ upper then some (clamp lower upper n) else none

namespace SpanForest

/-- A span that waits for its place, where the row inside it may fail to be laid. -/
structure Waiting where
  span : Span
  start : Nat
  stop : Nat
  fill? : Nat → Nat → Option SpanForest

namespace Waiting

/-- A waiting span whose interval is moved into the one of its parent. -/
def clampTo? (lower upper : Nat) (w : Waiting) : Option Waiting := do
  let start ← clamp? lower upper w.start
  let stop ← clamp? start upper w.stop
  return { w with start := start, stop := stop }

/-- Siblings laid out one behind the other, none before the cursor. -/
def layOut? (cursor : Nat) : List Waiting → Option SpanForest
  | [] => some nil
  | w :: ws => do
    let start := max w.start cursor
    let stop := max w.stop start
    let inner ← w.fill? start stop
    let rest ← layOut? stop ws
    return node w.span start stop inner rest

/-- Siblings brought inside their parent's interval, ordered by where they start, and laid out. -/
def settle? (lower upper : Nat) (ws : List Waiting) : Option SpanForest := do
  let clamped ← ws.mapM (clampTo? lower upper)
  layOut? lower (clamped.mergeSort fun a b => decide (a.start ≤ b.start))

end Waiting

/-- The spans of a row, waiting for their places, with the intervals that `target` gives them. -/
def waiting (target : Span → Nat × Nat) : SpanForest → List Waiting
  | nil => []
  | node s _ _ inner rest =>
    ⟨s, (target s).1, (target s).2, fun lower upper =>
      Waiting.settle? lower upper (inner.waiting target)⟩ :: rest.waiting target

end SpanForest

namespace SpanTree

/-- The tree of another sentence of `width` words, if all bounds are in order on the way. -/
def project? (t : SpanTree) (width : Nat) (target : Span → Nat × Nat) : Option SpanTree :=
  (SpanForest.Waiting.settle? 0 width (t.forest.waiting target)).map (⟨width, ·⟩)

end SpanTree

end MarkupTransfer
