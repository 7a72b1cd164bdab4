import MarkupTransfer.Text.Scan
import MarkupTransfer.Word
/-!
# Separating blanks

The placeholders of words are written in one row, each between two blanks. Blanks that are not
wanted are taken out of the row, and those that are left between words say where a space is
required. Around punctuation, no blank is wanted before a closing mark and none after an opening
bracket.
-/

namespace MarkupTransfer

/-- Words in a row, the range of each of them, and the offsets of the blanks that were taken out. -/
structure Separators where
  text : Text
  ranges : List Range
  removed : List Nat
  deriving DecidableEq, Repr

/-- Decides which of the blanks between words are not wanted. -/
abbrev Annotator := Separators → Separators

namespace Separators

/-- Words from an offset on, each with a blank behind it, and their ranges. -/
def row (offset : Nat) : List Text → Text × List Range
  | [] => ([], [])
  | t :: rest =>
    let stop := offset + t.size
    let (text, ranges) := row (stop + 1) rest
    (t ++ ' ' :: text, ⟨offset, stop⟩ :: ranges)

/-- The row of the placeholders of words, nothing taken out. -/
def ofWords (words : List Word) : Separators :=
  let (text, ranges) := row 1 (words.map Word.placeholder)
  ⟨' ' :: text, ranges, []⟩

/-- 1 where a text begins with a blank, otherwise 0. -/
def blankLength : Text → Nat
  | ' ' :: _ => 1
  | _ => 0

/-- The offsets of all blanks, those inside words included. -/
def blanks (s : Separators) : List Nat := (Text.scan blankLength s.text).map Text.Occurrence.start

/-- Take out some blanks. -/
def remove (s : Separators) (offsets : List Nat) : Separators :=
  { s with removed := s.removed ++ offsets }

/-- Take out the first blank at or behind an offset. The blank in front of the row does not
count. -/
def removeRight (s : Separators) (offset : Nat) : Separators :=
  s.remove (s.blanks.find? fun b => max offset 1 ≤ b).toList

/-- Take out the last blank at or before an offset. The blank in front of the row does not count. -/
def removeLeft (s : Separators) (offset : Nat) : Separators :=
  s.remove (s.blanks.reverse.find? fun b => 1 ≤ b && b ≤ offset).toList

/-- Take out every blank of a range. -/
def removeAll (s : Separators) (start stop : Nat) : Separators :=
  s.remove (s.blanks.filter fun b => start ≤ b && b < stop)

/-- Whether a blank was taken out. -/
def isRemoved (s : Separators) (offset : Nat) : Bool := s.removed.contains offset

/-- The blanks that were taken out, in order. -/
def removedBlanks (s : Separators) : List Nat := s.blanks.filter s.isRemoved

/-! ## Requirements -/

/-- Whether a space is required between a word of the row and the next one, if there is one. -/
def requires? (s : Separators) (index : Nat) : Option Bool :=
  if index + 1 < s.ranges.length then s.ranges[index]?.map fun r => !s.isRemoved r.stop else none

/-- Flag the sides of words on which a space is required. None is at the two outer ends, and flags
beyond the row stay as they are. -/
def apply (s : Separators) (words : List Word) : List Word :=
  words.mapIdx fun i w =>
    { w with
      leftSpaceRequired :=
        if i = 0 then false else (s.requires? (i - 1)).getD w.leftSpaceRequired
      rightSpaceRequired :=
        if i + 1 = words.length then false else (s.requires? i).getD w.rightSpaceRequired }

/-! ## Punctuation -/

/-- Characters before which no blank is wanted. -/
def isClosingMark (c : Char) : Bool := ['.', ',', ';', ':', '!', '?', ')', ']', '}', '%'].contains c

/-- Characters after which no blank is wanted. -/
def isOpeningMark (c : Char) : Bool := ['(', '[', '{'].contains c

/-- Take out the blanks that a word does not want, given its place in the row. -/
def punctuateWord (s : Separators) (index : Nat) (r : Range) : Separators :=
  let word := s.text.slice r.start r.stop
  let s := if 0 < index ∧ word.all isClosingMark then s.removeLeft r.start else s
  if index + 1 < s.ranges.length ∧ word.all isOpeningMark then s.removeRight r.stop else s

/-- Take out the blanks that words do not want, from left to right. -/
def punctuate : Annotator := fun s =>
  s.ranges.zipIdx.foldl (fun acc entry => acc.punctuateWord entry.2 entry.1) s

end Separators

end MarkupTransfer
