import MarkupTransfer.Projection.Span
/-!
# Trees of spans

Spans nest the way their tags do, whatever words they cover, so spans over the same words keep their
order of nesting. To carry a tree over to another sentence every span gets a new interval; siblings
are put in the order of their intervals and pushed apart inside their parent.
-/

namespace MarkupTransfer

/-- A row of nested spans: nothing, or a span placed at an interval, with the row of spans inside
it, followed by the rest of the row. -/
inductive SpanForest
  | nil
  | node (span : Span) (start stop : Nat) (inner rest : SpanForest)
  deriving DecidableEq, Repr

namespace SpanForest

/-! ## Nesting -/

/-- Cut a row before the first span that begins behind a tag. -/
def splitAt (closing : Nat) : SpanForest → SpanForest × SpanForest
  | nil => (nil, nil)
  | node s start stop inner rest =>
    if s.opening < closing then
      let (front, back) := rest.splitAt closing
      (node s start stop inner front, back)
    else (nil, node s start stop inner rest)

/-- Put a span in front of a row. It takes in what follows up to its closing tag. -/
def enclose (s : Span) (row : SpanForest) : SpanForest :=
  match s.closing with
  | none => node s s.start s.stop nil row
  | some c =>
    let (inner, rest) := row.splitAt c
    node s s.start s.stop inner rest

/-- The nesting of spans that are given in the order of their opening tags. -/
def ofSpans : List Span → SpanForest
  | [] => nil
  | s :: rest => enclose s (ofSpans rest)

/-! ## Walking -/

/-- Every span with its interval, parents before what they hold. -/
def toList : SpanForest → List (Span × Nat × Nat)
  | nil => []
  | node s start stop inner rest => (s, start, stop) :: inner.toList ++ rest.toList

/-- Whether every span lies inside its parent and siblings do not overlap. -/
def isNested (lower upper : Nat) : SpanForest → Bool
  | nil => true
  | node _ start stop inner rest =>
    lower ≤ start && start ≤ stop && stop ≤ upper &&
      inner.isNested start stop && rest.isNested stop upper

/-- The tag with an index, at another position. -/
def tagAt (source : List Tag) (index position : Nat) : List Tag :=
  source[index]?.toList.map fun t => { t with position := position }

/-- The tags of the spans in document order, copied from the source and put at the ends of their
intervals. -/
def toTags (source : List Tag) : SpanForest → List Tag
  | nil => []
  | node s start stop inner rest =>
    tagAt source s.opening start ++ inner.toTags source ++
      (match s.closing with
        | some c => tagAt source c stop
        | none => []) ++
      rest.toTags source

/-! ## Carrying over -/

/-- A span that waits for its place: the interval it should have, and the row inside it once its
place is known. -/
structure Placement where
  span : Span
  start : Nat
  stop : Nat
  fill : Nat → Nat → SpanForest

namespace Placement

/-- A placement whose interval is moved into the one of its parent. -/
def clampTo (lower upper : Nat) (p : Placement) : Placement :=
  let start := clamp lower upper p.start
  { p with start := start, stop := clamp start upper p.stop }

/-- Siblings laid out one behind the other, none before the cursor. -/
def layOut (cursor : Nat) : List Placement → SpanForest
  | [] => nil
  | p :: rest =>
    let start := max p.start cursor
    let stop := max p.stop start
    node p.span start stop (p.fill start stop) (layOut stop rest)

/-- Siblings brought inside their parent's interval, ordered by where they start, and laid out. -/
def settle (lower upper : Nat) (ps : List Placement) : SpanForest :=
  layOut lower ((ps.map (clampTo lower upper)).mergeSort fun a b => decide (a.start ≤ b.start))

end Placement

/-- The spans of a row with the intervals that `target` gives them. -/
def placements (target : Span → Nat × Nat) : SpanForest → List Placement
  | nil => []
  | node s _ _ inner rest =>
    ⟨s, (target s).1, (target s).2, fun lower upper =>
      Placement.settle lower upper (inner.placements target)⟩ :: rest.placements target

end SpanForest

/-- The spans of a sentence of `width` words. -/
structure SpanTree where
  width : Nat
  forest : SpanForest
  deriving DecidableEq, Repr

namespace SpanTree

/-- The tree of spans that are given in the order of their opening tags. -/
def ofSpans (width : Nat) (spans : List Span) : SpanTree := ⟨width, .ofSpans spans⟩

/-- Every span with its interval, parents before what they hold. -/
def toList (t : SpanTree) : List (Span × Nat × Nat) := t.forest.toList

/-- Whether every span lies inside its parent and siblings do not overlap. -/
def isNested (t : SpanTree) : Bool := t.forest.isNested 0 t.width

/-- The tags of a tree, at the ends of their intervals. -/
def toTags (t : SpanTree) (source : List Tag) : List Tag := t.forest.toTags source

/-- The tree of another sentence of `width` words, in which `target` says where every span
should lie. -/
def project (t : SpanTree) (width : Nat) (target : Span → Nat × Nat) : SpanTree :=
  ⟨width, SpanForest.Placement.settle 0 width (t.forest.placements target)⟩

end SpanTree

end MarkupTransfer
