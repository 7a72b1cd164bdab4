import MarkupTransfer.Token
import MarkupTransfer.Text.Numeral
/-!
# Edits and marks

An edit asks for a range of the working text to be replaced, to become a token, or both. A mark is
an edit that was accepted, along with the text its range covered at that time.
-/

namespace MarkupTransfer

/-- A request to replace a range, to make a token of it, or both. -/
structure Edit where
  start : Nat
  length : Nat
  replacement : Option Text
  role : Option Role
  deriving DecidableEq, Repr

namespace Edit

/-- Put another text in the place of a range. -/
def replace (start length : Nat) (replacement : Text) : Edit :=
  ⟨start, length, some replacement, none⟩

/-- Take a range out. -/
def delete (start length : Nat) : Edit := ⟨start, length, some [], none⟩

/-- Make a token of a range, with another text in its place if one is given. -/
def token (role : Role) (start length : Nat) (replacement : Option Text) : Edit :=
  ⟨start, length, replacement, some role⟩

/-- Offset at which the range of an edit ends. -/
def stop (e : Edit) : Nat := e.start + e.length

end Edit

/-- An accepted edit. Its range is one of the working text while its session is open and one of the
source after that; `text` is what the range covered in the working text. -/
structure Mark where
  start : Nat
  stop : Nat
  text : Text
  replacement : Option Text
  role : Option Role
  deriving DecidableEq, Repr

namespace Mark

/-- Number of bytes of a mark. -/
def length (m : Mark) : Nat := m.stop - m.start

/-- Whether a mark covers nothing. -/
def isEmpty (m : Mark) : Bool := m.start == m.stop

/-- The normalised form of the token made of a mark: for a word that was replaced its replacement,
otherwise the text that was covered. -/
def placeholder (m : Mark) : Text :=
  match m.role, m.replacement with
  | some .word, some r => r
  | _, _ => m.text

end Mark

/-- Why an edit is turned down. -/
inductive EditError
  | emptyReplacement (start stop : Nat)
  | outOfBounds (start stop size : Nat)
  | notCharBoundary (start stop : Nat)
  | outOfOrder (start limit : Nat)
  deriving DecidableEq, Repr

namespace EditError

/-- How the error is reported. -/
def message : EditError → Text
  | emptyReplacement start stop =>
    "Empty replacements are not supported in the middle of the string (range ".toList ++
      Text.decimal start ++ "..".toList ++ Text.decimal stop ++ ")".toList
  | outOfBounds start stop size =>
    "Edit range ".toList ++ Text.decimal start ++ "..".toList ++ Text.decimal stop ++
      " is out of bounds for a string of length ".toList ++ Text.decimal size
  | notCharBoundary start stop =>
    "Edit range ".toList ++ Text.decimal start ++ "..".toList ++ Text.decimal stop ++
      " does not fall on character boundaries".toList
  | outOfOrder start limit =>
    "Edit at ".toList ++ Text.decimal start ++ " must not start before ".toList ++
      Text.decimal limit ++ ", set by an earlier edit in the same session".toList

end EditError

end MarkupTransfer
