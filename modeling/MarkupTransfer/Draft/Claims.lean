import MarkupTransfer.Bisection
import MarkupTransfer.Draft.Mark
/-!
# Which marks become tokens

Marks are gone through from the latest to the earliest. Each one that makes a token claims its range
of the source, and an earlier mark that touches a claimed byte is dropped.

Claimed ranges are kept in ascending order, so the first one that ends behind an offset can be
looked for by halves too. It tells whether a range is free, and where it is put if it is.
-/

namespace MarkupTransfer

/-- Ranges that do not overlap, in ascending order. -/
structure Claims where
  ranges : List Range
  deriving DecidableEq, Repr

namespace Claims

/-- No claims. -/
def empty : Claims := ⟨[]⟩

/-- Whether a range shares a byte with a claimed one. -/
def overlaps (c : Claims) (r : Range) : Bool :=
  !r.isEmpty &&
    match c.ranges.dropWhile fun q => q.stop ≤ r.start with
    | [] => false
    | q :: _ => decide (q.start < r.stop)

/-- Claim a range that overlaps none. An empty range claims nothing. -/
def claim (c : Claims) (r : Range) : Claims :=
  if r.isEmpty then c
  else ⟨(c.ranges.takeWhile fun q => q.stop ≤ r.start) ++
    r :: c.ranges.dropWhile fun q => q.stop ≤ r.start⟩

/-! ## By halves -/

/-- The number of claimed ranges that end in front of an offset, looked for by halves. -/
def endingBefore (c : Claims) (offset : Nat) : Nat :=
  cutByHalves (fun q => decide (q.stop ≤ offset)) c.ranges

/-- Whether a range shares a byte with a claimed one. -/
def overlapsByHalves (c : Claims) (r : Range) : Bool :=
  !r.isEmpty && c.ranges[c.endingBefore r.start]?.any fun q => decide (q.start < r.stop)

/-- Claim a range that overlaps none. -/
def claimByHalves (c : Claims) (r : Range) : Claims :=
  if r.isEmpty then c
  else ⟨c.ranges.take (c.endingBefore r.start) ++ r :: c.ranges.drop (c.endingBefore r.start)⟩

end Claims

/-! ## Accepted marks -/

/-- A mark that becomes a token, and which one. -/
structure Accepted where
  mark : Mark
  role : Role
  deriving DecidableEq, Repr

namespace Mark

/-- The range of a mark. -/
def range (m : Mark) : Range := ⟨m.start, m.stop⟩

/-- The marks of a list that become tokens, in the order of the list, and the ranges they claim. -/
def acceptAll : List Mark → Claims × List Accepted
  | [] => (.empty, [])
  | m :: later =>
    let (claims, accepted) := acceptAll later
    match m.role with
    | none => (claims, accepted)
    | some role =>
      if claims.overlaps m.range then (claims, accepted)
      else (claims.claim m.range, ⟨m, role⟩ :: accepted)

/-- The marks that become tokens, in the order in which they begin in the source. Those that begin
at one place keep the order in which they were made. -/
def accepted (marks : List Mark) : List Accepted :=
  (acceptAll marks).2.mergeSort fun a b => decide (a.mark.start ≤ b.mark.start)

end Mark

end MarkupTransfer
