import MarkupTransfer.Projection.Pairing
/-!
# Spans

A pair of tags spans the words between its two positions; a tag that stands alone spans none.
-/

namespace MarkupTransfer

/-- The words from `start` up to `stop` covered by a tag or a pair of tags, which are given by
index. -/
structure Span where
  opening : Nat
  closing : Option Nat
  start : Nat
  stop : Nat
  deriving DecidableEq, Repr

namespace Span

/-- Whether a span belongs to a pair of tags. -/
def isPair (s : Span) : Bool := s.closing.isSome

/-- Whether a span covers no words. -/
def isEmpty (s : Span) : Bool := s.start == s.stop

/-- Whether the words of a span include those of another one. -/
def contains (s other : Span) : Bool := s.start ≤ other.start && other.stop ≤ s.stop

end Span

/-- The number nearest to a given one between two bounds. -/
def clamp (lower upper n : Nat) : Nat := max lower (min n upper)

namespace Pairing

/-- Position of a tag by its index. -/
def position (p : Pairing) (index : Nat) : Nat := (p.tags[index]?.map Tag.position).getD 0

/-- The span that begins at a tag; none begins at a tag that closes another one. Positions behind
the last of `wordCount` words count as its end. -/
def span? (p : Pairing) (wordCount index : Nat) : Option Span :=
  let start := min (p.position index) wordCount
  match p.closing? index with
  | some c => some ⟨index, some c, start, clamp start wordCount (p.position c)⟩
  | none => if (p.opening? index).isSome then none else some ⟨index, none, start, start⟩

/-- The spans of a sentence, in the order of their first tags. -/
def spans (p : Pairing) (wordCount : Nat) : List Span :=
  (List.range p.tags.length).filterMap (p.span? wordCount)

end Pairing

end MarkupTransfer
