import MarkupTransfer.Text.Basic
/-!
# Spaces between tokens

Every token records the space it saw on each of its sides: none, some characters, or a boundary
without characters. Two neighbours may disagree about the boundary they share; `merge` and
`mergeSpace` say what stands there.

* `merge_none_left`, `merge_none_right`: a side that knows nothing leaves the decision to the other.
-/

namespace MarkupTransfer

/-- What stands at a boundary: characters of the text, or a boundary that has none and is shown as
one blank. -/
inductive Space
  | literal (text : Text)
  | virtual
  deriving DecidableEq, Repr

namespace Space

/-- The characters of a literal space. -/
def literal? : Space → Option Text
  | literal t => some t
  | virtual => none

/-- Whether a space consists of characters of the text. -/
def isLiteral (s : Space) : Bool := s.literal?.isSome

/-- The characters shown for a space. -/
def shown : Space → Text
  | literal t => t
  | virtual => [' ']

/-- A single blank. -/
def blank : Space := literal [' ']

/-- One space out of two that describe the same boundary. Characters outweigh a boundary without
any, and two different texts are put side by side. -/
def merge : Option Space → Option Space → Option Space
  | none, right => right
  | some virtual, some (literal r) => some (literal r)
  | some virtual, _ => some virtual
  | some (literal l), some (literal r) => some (literal (if l = r then l else l ++ r))
  | some (literal l), _ => some (literal l)

@[simp] theorem merge_none_left (s : Option Space) : merge none s = s := rfl

@[simp] theorem merge_none_right (s : Option Space) : merge s none = s := by
  rcases s with _ | _ | _ <;> rfl

/-- A space that has characters; any other is dropped. -/
def onlyLiteral (s : Option Space) : Option Space := s.filter isLiteral

/-- Which kind of token stands at one side of a boundary. -/
inductive TokenClass
  | word
  | tag
  deriving DecidableEq, Repr

/-- The space between two neighbours. `carried` is what has gathered since the last token shown,
`left` the right space of the token on the left and `right` the left space of the one on the right.
Next to a tag a boundary without characters never counts, and between a word and a tag the space
recorded on the right has precedence. -/
def mergeSpace (carried left right : Option Space) (leftClass rightClass : TokenClass) :
    Option Space :=
  let known := merge carried left
  match leftClass, rightClass with
  | .word, .word => merge known right
  | .tag, .tag => merge (onlyLiteral known) (onlyLiteral right)
  | _, _ => onlyLiteral right <|> onlyLiteral known

end Space

end MarkupTransfer
