import MarkupTransfer.Text.Basic
/-!
# Scanning a text for tokens of one kind

A kind of token is given by a function that says how many characters of it stand at the head of a
text, none being 0. Scanning walks the text from left to right, takes every token it meets and goes
on behind it, so the tokens found never overlap.
-/

namespace MarkupTransfer.Text

/-- A stretch of a text and the offset at which it begins. -/
structure Occurrence where
  start : Nat
  text : Text
  deriving DecidableEq, Repr

/-- Offset just behind an occurrence. -/
def Occurrence.stop (o : Occurrence) : Nat := o.start + size o.text

/-- The tokens of a text that begins at an offset, once some characters have been skipped. -/
def scanFrom (lengthAt : Text → Nat) : Nat → Nat → Text → List Occurrence
  | _, _, [] => []
  | offset, skip + 1, c :: t => scanFrom lengthAt (offset + c.utf8Size) skip t
  | offset, 0, c :: t =>
    match lengthAt (c :: t) with
    | 0 => scanFrom lengthAt (offset + c.utf8Size) 0 t
    | n + 1 => ⟨offset, (c :: t).take (n + 1)⟩ :: scanFrom lengthAt (offset + c.utf8Size) n t

/-- The tokens of a text, from left to right. -/
def scan (lengthAt : Text → Nat) (t : Text) : List Occurrence := scanFrom lengthAt 0 0 t

theorem scanFrom_skip (lengthAt : Text → Nat) (offset skip : Nat) (t : Text) :
    scanFrom lengthAt offset skip t =
      scanFrom lengthAt (offset + size (t.take skip)) 0 (t.drop skip) := by
  induction skip generalizing offset t with
  | zero => simp
  | succ n ih =>
    cases t with
    | nil => simp [scanFrom]
    | cons c t => simp [scanFrom, ih, Nat.add_assoc]

end MarkupTransfer.Text
