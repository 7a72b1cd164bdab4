import MarkupTransfer.Projection.SpanTree
/-!
# Trees of spans in one pass

Spans come in the order of their first tags, so a tree can be made of them in one pass. A pair stays
open until a span begins behind its last tag, and is then handed to the pair around it.
-/

namespace MarkupTransfer

namespace SpanForest

/-- A row with another one behind it. -/
def append : SpanForest → SpanForest → SpanForest
  | nil, back => back
  | node s start stop inner rest, back => node s start stop inner (rest.append back)

/-- A pair that is still open, the tag that closes it, and what it holds so far. -/
structure OpenPair where
  span : Span
  closing : Nat
  held : SpanForest

/-- The row that an open pair becomes. -/
def OpenPair.row (f : OpenPair) : SpanForest := node f.span f.span.start f.span.stop f.held nil

/-- A tree that is being made: what lies in no open pair, and the open pairs, innermost first. -/
structure Builder where
  outer : SpanForest
  opened : List OpenPair

namespace Builder

/-- Put a row into the innermost open pair. -/
def put (row : SpanForest) : Builder → Builder
  | ⟨outer, []⟩ => ⟨outer.append row, []⟩
  | ⟨outer, f :: fs⟩ => ⟨outer, { f with held := f.held.append row } :: fs⟩

theorem length_put (row : SpanForest) (b : Builder) :
    (b.put row).opened.length = b.opened.length := by
  obtain ⟨outer, _ | ⟨f, fs⟩⟩ := b <;> rfl

/-- Close the open pairs that end in front of a tag. -/
def closeBefore (index : Nat) : Builder → Builder
  | ⟨outer, []⟩ => ⟨outer, []⟩
  | ⟨outer, f :: fs⟩ =>
    if f.closing < index then closeBefore index (put f.row ⟨outer, fs⟩) else ⟨outer, f :: fs⟩
termination_by b => b.opened.length
decreasing_by
  rw [length_put]
  exact Nat.lt_succ_self _

/-- Close all pairs. -/
def closeAll : Builder → SpanForest
  | ⟨outer, []⟩ => outer
  | ⟨outer, f :: fs⟩ => closeAll (put f.row ⟨outer, fs⟩)
termination_by b => b.opened.length
decreasing_by
  rw [length_put]
  exact Nat.lt_succ_self _

/-- Take in the next span. -/
def add (b : Builder) (s : Span) : Builder :=
  let b := b.closeBefore s.opening
  match s.closing with
  | some c => { b with opened := ⟨s, c, nil⟩ :: b.opened }
  | none => b.put (node s s.start s.stop nil nil)

end Builder

end SpanForest

/-- The tree of spans that are given in the order of their opening tags, made in one pass. -/
def SpanTree.build (width : Nat) (spans : List Span) : SpanTree :=
  ⟨width, (spans.foldl SpanForest.Builder.add ⟨.nil, []⟩).closeAll⟩

end MarkupTransfer
