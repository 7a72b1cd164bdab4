import MarkupTransfer.Space
import MarkupTransfer.Markup.Grammar
import MarkupTransfer.Text.Printable
/-!
# Tags

A tag is a piece of markup placed between words. This file reads tags from their text, which is
more lenient than finding them in running text: the end of a tag is not looked for.
-/

namespace MarkupTransfer

/-- Where a tag came from: markup, or a blank kept as a tag of its own. -/
inductive TagKind
  | xml
  | whitespace
  deriving DecidableEq, Repr

/-- What a tag does: begin an element, end it, or stand alone. -/
inductive TagType
  | opening
  | closing
  | empty
  deriving DecidableEq, Repr

/-- A piece of markup between words. `position` counts the words before it. -/
structure Tag where
  kind : TagKind
  name : Text
  text : Text
  leftSpace : Option Space
  rightSpace : Option Space
  position : Nat
  type : TagType
  isDeclaration : Bool
  deriving DecidableEq, Repr

/-- A text that is no tag. -/
structure MalformedTag where
  text : Text
  deriving DecidableEq, Repr

namespace MalformedTag

/-- How the error is reported. -/
def message (e : MalformedTag) : Text := "Invalid tag: ".toList ++ e.text.quoted

end MalformedTag

namespace Tag

/-- The name of both ends of a comment. -/
def commentName : Text := ['-', '-']

/-- Whether the last character of a text takes one byte and comes after a slash. -/
def endsEmpty (t : Text) : Bool :=
  match t.reverse with
  | last :: '/' :: _ => last.utf8Size == 1
  | _ => false

/-- What the text of a tag says about it: its name, what it does, and whether it is a
declaration. -/
def read? : Text → Option (Text × TagType × Bool)
  | ['<', '!', '-', '-'] => some (commentName, .opening, false)
  | ['-', '-', '>'] => some (commentName, .closing, false)
  | '<' :: c :: d :: t =>
    if c = '!' then (Markup.nameAt? (d :: t)).map fun name => (name, .opening, true)
    else if c = '/' then (Markup.nameAt? (d :: t)).map fun name => (name, .closing, false)
    else (Markup.nameAt? (c :: d :: t)).map fun name =>
      (name, if endsEmpty ('<' :: c :: d :: t) then .empty else .opening, false)
  | _ => none

/-- Read a tag: `<a>`, `</a>`, `<a/>`, `<!DECL ...>`, `<!--` or `-->`. -/
def xml (text : Text) (left right : Option Space) (position : Nat) : Except MalformedTag Tag :=
  match read? text with
  | some (name, type, isDeclaration) =>
    .ok ⟨.xml, name, text, left, right, position, type, isDeclaration⟩
  | none => .error ⟨text⟩

/-- The name of a blank kept as a tag. -/
def blankName (c : Char) : Text :=
  if c = '\t' then ['T', 'A', 'B'] else if c = '\n' then ['N', 'L'] else ['W', 'S']

/-- Make a tag of a single character. -/
def whitespace (text : Text) (left right : Option Space) (position : Nat) :
    Except MalformedTag Tag :=
  match text with
  | [c] => .ok ⟨.whitespace, blankName c, text, left, right, position, .empty, false⟩
  | _ => .error ⟨text⟩

/-- Whether a tag is either end of a comment. -/
def isComment (t : Tag) : Bool := t.name == commentName

/-- Whether a tag begins an element that may be closed later. -/
def begins (t : Tag) : Bool := t.type == .opening && !t.isDeclaration

/-- Whether a tag ends the element that another one begins. -/
def closes (t other : Tag) : Bool :=
  !t.isDeclaration && t.type == .closing && other.begins && t.name == other.name

/-- Whether a tag begins the element that another one ends. -/
def opens (t other : Tag) : Bool := other.closes t

end Tag

end MarkupTransfer
