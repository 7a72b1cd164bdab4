import MarkupTransfer.Draft.Mark
/-!
# Edit sessions

A session collects edits of one working text, from left to right, without touching it. Edits are
stated in the positions of the text as it stood when the session was opened.
-/

namespace MarkupTransfer

/-- The working text at the opening of a session and the marks made so far. -/
structure Session where
  text : Text
  pending : List Mark
  deriving DecidableEq, Repr

namespace Session

/-- A session without marks. -/
def ofText (text : Text) : Session := ⟨text, []⟩

/-- Where the next edit may begin at the earliest: behind the last mark if it has a replacement, at
its start if not. -/
def limit (s : Session) : Nat :=
  match s.pending.getLast? with
  | none => 0
  | some m => if m.replacement.isSome then m.stop else m.start

/-- What is wrong with an edit, if anything. An empty replacement has to lie at either end of the
text. -/
def refusal? (s : Session) (e : Edit) : Option EditError :=
  let size := s.text.size
  if size < e.stop then some (.outOfBounds e.start (min e.stop Text.maxCount) size)
  else if !(s.text.isBoundary e.start && s.text.isBoundary e.stop) then
    some (.notCharBoundary e.start e.stop)
  else if e.replacement = some [] ∧ e.start ≠ 0 ∧ e.stop ≠ size then
    some (.emptyReplacement e.start e.stop)
  else if e.start < s.limit then some (.outOfOrder e.start s.limit)
  else none

/-- The mark that an edit leaves. -/
def mark (s : Session) (e : Edit) : Mark :=
  ⟨e.start, e.stop, s.text.slice e.start e.stop, e.replacement, e.role⟩

/-- Add an edit to a session. -/
def record (s : Session) (e : Edit) : Except EditError Session :=
  match s.refusal? e with
  | some error => .error error
  | none => .ok { s with pending := s.pending ++ [s.mark e] }

/-- Add edits up to the first one that is turned down. -/
def recordAll (s : Session) : List Edit → Session × Option EditError
  | [] => (s, none)
  | e :: rest =>
    match s.record e with
    | .ok s => s.recordAll rest
    | .error error => (s, some error)

end Session

end MarkupTransfer
