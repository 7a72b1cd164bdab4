import MarkupTransfer.Sentence.Basic
import MarkupTransfer.Json.Read
/-!
# Stored sentences

A sentence as a JSON value and as the text of one. Nothing is checked or put in order when a
sentence is read back, but its annotations are a set.
-/

namespace MarkupTransfer

/-! ## Spaces -/

namespace Space

/-- A space as a variant: a bare name, or an object that holds the characters. -/
def toJson : Space → Json
  | virtual => .string "virtual".toList
  | literal t => .object [("literal".toList, .string t)]

/-- Read a space. -/
def ofJson? (j : Json) : Option Space :=
  match j.variant? with
  | some (name, value) =>
    if name = "virtual".toList then
      match value with
      | none => some virtual
      | some .null => some virtual
      | some _ => none
    else if name = "literal".toList then (value.bind Json.text?).map literal
    else none
  | none => none

/-- A space that may be absent. -/
def optionToJson : Option Space → Json
  | none => .null
  | some s => s.toJson

end Space

/-- A text that may be absent. -/
def Text.optionToJson : Option Text → Json
  | none => .null
  | some t => .string t

/-! ## Words -/

namespace Word

/-- The names of the fields of a stored word. -/
def fieldNames : List Text :=
  ["text".toList, "placeholder".toList, "left_space".toList, "right_space".toList,
    "left_space_required".toList, "right_space_required".toList,
    "tag_right_space_required".toList]

/-- A word as an object. -/
def toJson (w : Word) : Json :=
  .object (fieldNames.zip
    [Text.optionToJson w.text, .string w.placeholder, Space.optionToJson w.leftSpace,
      Space.optionToJson w.rightSpace, .bool w.leftSpaceRequired, .bool w.rightSpaceRequired,
      .bool w.tagRightSpaceRequired])

/-- Read a word. -/
def ofJson? (j : Json) : Option Word :=
  match j.record? fieldNames with
  | some [text, placeholder, left, right, leftRequired, rightRequired, tagRightRequired] => do
    return {
      text := ← Json.optional? Json.text? text
      placeholder := ← placeholder.bind Json.text?
      leftSpace := ← Json.optional? Space.ofJson? left
      rightSpace := ← Json.optional? Space.ofJson? right
      leftSpaceRequired := ← leftRequired.bind Json.bool?
      rightSpaceRequired := ← rightRequired.bind Json.bool?
      tagRightSpaceRequired := ← tagRightRequired.bind Json.bool? }
  | _ => none

end Word

/-! ## Tags -/

namespace TagKind

/-- The name under which a kind is stored. -/
def storedName : TagKind → Text
  | xml => "Xml".toList
  | whitespace => "Whitespace".toList

/-- Read a kind. -/
def ofJson? (j : Json) : Option TagKind :=
  j.bareVariant?.bind fun name => [xml, whitespace].find? fun k => k.storedName == name

end TagKind

namespace TagType

/-- The name under which a type is stored. -/
def storedName : TagType → Text
  | opening => "Opening".toList
  | closing => "Closing".toList
  | empty => "Empty".toList

/-- Read a type. -/
def ofJson? (j : Json) : Option TagType :=
  j.bareVariant?.bind fun name => [opening, closing, empty].find? fun k => k.storedName == name

end TagType

namespace Tag

/-- The names of the fields of a stored tag. -/
def fieldNames : List Text :=
  ["kind".toList, "name".toList, "text".toList, "left_space".toList, "right_space".toList,
    "position".toList, "tag_type".toList, "dtd".toList]

/-- A tag as an object. -/
def toJson (t : Tag) : Json :=
  .object (fieldNames.zip
    [.string t.kind.storedName, .string t.name, .string t.text, Space.optionToJson t.leftSpace,
      Space.optionToJson t.rightSpace, .integer t.position, .string t.type.storedName,
      .bool t.isDeclaration])

/-- Read a tag. -/
def ofJson? (j : Json) : Option Tag :=
  match j.record? fieldNames with
  | some [kind, name, text, left, right, position, type, isDeclaration] => do
    return {
      kind := ← kind.bind TagKind.ofJson?
      name := ← name.bind Json.text?
      text := ← text.bind Json.text?
      leftSpace := ← Json.optional? Space.ofJson? left
      rightSpace := ← Json.optional? Space.ofJson? right
      position := ← position.bind Json.count?
      type := ← type.bind TagType.ofJson?
      isDeclaration := ← isDeclaration.bind Json.bool? }
  | _ => none

end Tag

/-! ## Sentences -/

namespace Sentence

/-- The names of the fields of a stored sentence. -/
def fieldNames : List Text :=
  ["words".toList, "tags".toList, "space_consistent".toList, "annotations".toList]

/-- A sentence as an object. -/
def toJson (s : Sentence) : Json :=
  .object (fieldNames.zip
    [.array (s.words.map Word.toJson), .array (s.tags.map Tag.toJson), .bool s.spaceConsistent,
      .array (s.annotations.toList.map .string)])

/-- Read a sentence. -/
def ofJson? (j : Json) : Option Sentence :=
  match j.record? fieldNames with
  | some [words, tags, spaceConsistent, annotations] => do
    return {
      words := ← words.bind (Json.list? Word.ofJson?)
      tags := ← tags.bind (Json.list? Tag.ofJson?)
      spaceConsistent := ← spaceConsistent.bind Json.bool?
      annotations := .ofList (← annotations.bind (Json.list? Json.text?)) }
  | _ => none

/-- The text that a sentence is stored as. -/
def stored (s : Sentence) : Text := s.toJson.write

/-- The sentence that a text is the stored form of. -/
def load? (t : Text) : Option Sentence := (Json.read? t).bind ofJson?

end Sentence

end MarkupTransfer
