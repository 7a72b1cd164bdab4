import MarkupTransfer.Alignment
import MarkupTransfer.Projection.Span
import MarkupTransfer.Text.Numeral
/-!
# Where spans land

An alignment gives every source word a range of target words. A span lands on the range of the words
it covers; a place between words lands next to the nearest aligned word, or at the same share of the
sentence.
-/

namespace MarkupTransfer

/-- What becomes of a place with no aligned word on either side: it follows the nearest aligned
word, or keeps its share of the sentence. -/
inductive UnalignedPolicy
  | nearest
  | proportional
  deriving DecidableEq, Repr

/-- Why tags cannot be carried over. -/
inductive ProjectionError
  | alignmentOutOfRange (source target sourceCount targetCount : Nat)
  | missingSource
  deriving DecidableEq, Repr

namespace ProjectionError

/-- How the error is reported. -/
def message : ProjectionError → Text
  | alignmentOutOfRange source target sourceCount targetCount =>
    "Alignment point (".toList ++ Text.decimal source ++ ", ".toList ++ Text.decimal target ++
      ") is out of range for ".toList ++ Text.decimal sourceCount ++ " source and ".toList ++
      Text.decimal targetCount ++ " target words".toList
  | missingSource => "Translation has no source sentence to project from".toList

end ProjectionError

/-- The least and the greatest of some numbers. -/
def extremes? (ns : List Nat) : Option (Nat × Nat) :=
  ns.min?.bind fun low => ns.max?.map fun high => (low, high)

/-- For every source word the least and the greatest target word aligned to it, and the number of
target words. -/
structure Reach where
  words : List (Option (Nat × Nat))
  targetCount : Nat
  deriving DecidableEq, Repr

namespace Reach

/-- The reach of the words of a sentence. The first pair that names a word which is not there is an
error. -/
def ofAlignment (a : Alignment) (sourceCount targetCount : Nat) : Except ProjectionError Reach :=
  match a.toList.find? fun p => sourceCount ≤ p.1 || targetCount ≤ p.2 with
  | some (s, t) => .error (.alignmentOutOfRange s t sourceCount targetCount)
  | none => .ok ⟨(List.range sourceCount).map fun s => extremes? (a.targetsOf s), targetCount⟩

/-- Number of source words. -/
def sourceCount (r : Reach) : Nat := r.words.length

/-- The target words that a source word reaches. -/
def word? (r : Reach) (index : Nat) : Option (Nat × Nat) := r.words[index]?.join

/-! ## Places -/

/-- The target place before everything that a source word reaches. -/
def before? (r : Reach) (index : Nat) : Option Nat := (r.word? index).map Prod.fst

/-- The target place behind everything that a source word reaches. -/
def behind? (r : Reach) (index : Nat) : Option Nat := (r.word? index).map fun w => w.2 + 1

/-- The target place next to an aligned word some words away from a source place, on its right if
there is one, otherwise on its left. -/
def atDistance? (r : Reach) (place distance : Nat) : Option Nat :=
  r.before? (place + distance) <|>
    if distance < place then r.behind? (place - 1 - distance) else none

/-- The target place next to the nearest aligned word. -/
def nearest? (r : Reach) (place : Nat) : Option Nat :=
  (List.range (r.sourceCount + 1)).findSome? (r.atDistance? place)

/-- The target place at the same share of the sentence, rounded to the nearest. -/
def proportional (r : Reach) (place : Nat) : Nat :=
  if r.sourceCount = 0 then 0
  else min ((2 * place * r.targetCount + r.sourceCount) / (2 * r.sourceCount)) r.targetCount

/-- The target place for a source place. -/
def place (r : Reach) (policy : UnalignedPolicy) (place : Nat) : Nat :=
  match policy with
  | .nearest => (r.nearest? place).getD (r.proportional place)
  | .proportional => r.proportional place

/-! ## Spans -/

/-- The target words reached by the source words from `start` up to `stop`. -/
def coverage? (r : Reach) (start stop : Nat) : Option (Nat × Nat) :=
  let reached := ((r.words.take stop).drop start).filterMap id
  (reached.map Prod.fst).min?.bind fun low =>
    (reached.map Prod.snd).max?.map fun high => (low, high)

/-- The target interval for the two ends of a span, each placed on its own. -/
def ends (r : Reach) (policy : UnalignedPolicy) (s : Span) : Nat × Nat :=
  let start := r.place policy s.start
  (start, if s.isEmpty then start else max (r.place policy s.stop) start)

/-- The target interval for a span. -/
def span (r : Reach) (policy : UnalignedPolicy) (s : Span) : Nat × Nat :=
  if s.isPair && !s.isEmpty then
    match r.coverage? s.start s.stop with
    | some (low, high) => (low, high + 1)
    | none => r.ends policy s
  else r.ends policy s

end Reach

end MarkupTransfer
