import MarkupTransfer.Text.Scan
/-!
# What counts as a tag

A tag is an opening, empty or closing tag, a declaration, or either end of a comment. Attributes are
not read: a tag reaches to the first `>`. A declaration needs at least two characters between `<!`
and its end, the last of them not a slash; directly after its first `>` a second one belongs to it.
-/

namespace MarkupTransfer.Markup

/-- Characters with which a tag name may begin. -/
def isNameStart (c : Char) : Bool := c.isAlpha || c == '_' || c == ':'

/-- Characters of a tag name. -/
def isNameChar (c : Char) : Bool := isNameStart c || c.isDigit || c == '.' || c == '-'

/-- The tag name at the head of a text. -/
def nameAt? : Text → Option Text
  | c :: t => if isNameStart c then some (c :: t.takeWhile isNameChar) else none
  | [] => none

/-- What precedes the first `>` of a text. -/
def inside (t : Text) : Text := t.takeWhile (· != '>')

/-- A text from its first `>` on. -/
def fromClose (t : Text) : Text := t.dropWhile (· != '>')

/-- Number of characters up to the first `>`, itself included; 0 where there is none. -/
def lengthThroughClose (t : Text) : Nat :=
  match fromClose t with
  | [] => 0
  | _ :: _ => (inside t).length + 1

/-- Number of characters that end a declaration, after the first one of its name; 0 where none
do. -/
def declarationTail (t : Text) : Nat :=
  match fromClose t with
  | [] => 0
  | _ :: '>' :: _ => (inside t).length + 2
  | _ :: _ => if (inside t).getLast?.any (· != '/') then (inside t).length + 1 else 0

/-- Number of characters of a tag with a head of `head` characters and a tail as long as given. -/
def headed (head tail : Nat) : Nat := if tail = 0 then 0 else head + tail

/-- Number of characters of the tag at the head of a text; 0 where there is none. -/
def tagLength : Text → Nat
  | '-' :: '-' :: '>' :: _ => 3
  | '<' :: '!' :: '-' :: '-' :: _ => 4
  | '<' :: '!' :: c :: t => if isNameStart c then headed 3 (declarationTail t) else 0
  | '<' :: '/' :: c :: t => if isNameStart c then headed 3 (lengthThroughClose t) else 0
  | '<' :: c :: t => if isNameStart c then headed 2 (lengthThroughClose t) else 0
  | _ => 0

/-- The tags of a text. -/
def tags (t : Text) : List Text.Occurrence := Text.scan tagLength t

/-- The characters that are kept as tags of their own: tab and line feed. -/
def isBlankTag (c : Char) : Bool := c == '\t' || c == '\n'

/-- 1 where a text begins with a tab or a line feed, otherwise 0. -/
def blankTagLength : Text → Nat
  | c :: _ => if isBlankTag c then 1 else 0
  | [] => 0

/-- The tabs and line feeds of a text. -/
def blankTags (t : Text) : List Text.Occurrence := Text.scan blankTagLength t

end MarkupTransfer.Markup
