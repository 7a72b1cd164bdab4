import MarkupTransfer.Word
import MarkupTransfer.Tag
/-!
# Tokens

A token is a word or a tag. What a stretch of text becomes is its role.
-/

namespace MarkupTransfer

open Space (TokenClass)

/-- A word or a tag. -/
inductive Token
  | word (w : Word)
  | tag (t : Tag)
  deriving DecidableEq, Repr

namespace Token

/-- The kind of a token. -/
def cls : Token → TokenClass
  | word _ => .word
  | tag _ => .tag

/-- Space on the left of a token. -/
def leftSpace : Token → Option Space
  | word w => w.leftSpace
  | tag t => t.leftSpace

/-- Space on the right of a token. -/
def rightSpace : Token → Option Space
  | word w => w.rightSpace
  | tag t => t.rightSpace

/-- A token with another space on its left. -/
def withLeftSpace (s : Option Space) : Token → Token
  | word w => word { w with leftSpace := s }
  | tag t => tag { t with leftSpace := s }

/-- A token with another space on its right. -/
def withRightSpace (s : Option Space) : Token → Token
  | word w => word { w with rightSpace := s }
  | tag t => tag { t with rightSpace := s }

@[simp] theorem cls_withLeftSpace (s : Option Space) (t : Token) :
    (t.withLeftSpace s).cls = t.cls := by
  cases t <;> rfl

@[simp] theorem cls_withRightSpace (s : Option Space) (t : Token) :
    (t.withRightSpace s).cls = t.cls := by
  cases t <;> rfl

@[simp] theorem leftSpace_withLeftSpace (s : Option Space) (t : Token) :
    (t.withLeftSpace s).leftSpace = s := by
  cases t <;> rfl

@[simp] theorem rightSpace_withLeftSpace (s : Option Space) (t : Token) :
    (t.withLeftSpace s).rightSpace = t.rightSpace := by
  cases t <;> rfl

@[simp] theorem leftSpace_withRightSpace (s : Option Space) (t : Token) :
    (t.withRightSpace s).leftSpace = t.leftSpace := by
  cases t <;> rfl

@[simp] theorem rightSpace_withRightSpace (s : Option Space) (t : Token) :
    (t.withRightSpace s).rightSpace = s := by
  cases t <;> rfl

/-- The normalised form of a token; a tag has none but its text. -/
def placeholder : Token → Text
  | word w => w.placeholder
  | tag t => t.text

/-- The word that a token is, if it is one. -/
def word? : Token → Option Word
  | word w => some w
  | tag _ => none

/-- The tag that a token is, if it is one. -/
def tag? : Token → Option Tag
  | word _ => none
  | tag t => some t

end Token

/-- What a stretch of text becomes: a word, markup, or a blank kept as a tag. -/
inductive Role
  | word
  | xmlTag
  | whitespaceTag
  deriving DecidableEq, Repr

namespace Role

/-- The kind of the token that a role makes. -/
def cls : Role → TokenClass
  | word => .word
  | xmlTag => .tag
  | whitespaceTag => .tag

/-- Whether a role makes a tag. -/
def isTag (r : Role) : Bool := r.cls == .tag

/-- The token a stretch of text becomes. `text` is the stretch itself, decoded if it is a word, and
`placeholder` its normalised form, which tags do without. -/
def token (r : Role) (text placeholder : Text) (left right : Option Space) (position : Nat) :
    Except MalformedTag Token :=
  match r with
  | word => .ok (.word (.ofText (some text) placeholder left right))
  | xmlTag => (Tag.xml text left right position).map .tag
  | whitespaceTag => (Tag.whitespace text left right position).map .tag

end Role

end MarkupTransfer
