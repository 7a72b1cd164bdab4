import MarkupTransfer.Draft.Mark
import MarkupTransfer.Markup.Reference
import MarkupTransfer.Text.Segment
/-!
# Passes

A pass reads the working text and proposes edits, from left to right. The built-in passes mark tags,
tabs and line feeds, decode references and mark words.
-/

namespace MarkupTransfer

/-- A named way to propose edits of a text. -/
structure Pass where
  name : Text
  edits : Text → List Edit

namespace Pass

/-- An edit that makes a token of an occurrence. -/
def tokenEdit (role : Role) (replacement : Option Text) (o : Text.Occurrence) : Edit :=
  .token role o.start o.text.size replacement

/-- Marks tags and puts a blank in the place of each. -/
def xmlTags : Pass where
  name := "xml-tags".toList
  edits t := (Markup.tags t).map (tokenEdit .xmlTag (some [' ']))

/-- Marks tabs and line feeds as tags and puts a blank in the place of each. -/
def whitespaceTags : Pass where
  name := "whitespace-tags".toList
  edits t := (Markup.blankTags t).map (tokenEdit .whitespaceTag (some [' ']))

/-- Puts the character that a reference stands for in its place. -/
def entities : Pass where
  name := "xml-entities".toList
  edits t := (Markup.references t).filterMap fun o =>
    (Markup.decodeReference? o.text).map fun c => .replace o.start o.text.size [c]

/-- Marks every word segment that is not blank. -/
def words : Pass where
  name := "words".toList
  edits t := ((Text.placed 0 (Text.segments t)).filter fun s => !Text.isBlank s.2).map
    fun s => .token .word s.1 s.2.size none

/-- What a tab or a line feed is called as a word. -/
def blankPlaceholder (t : Text) : Text :=
  if t = ['\t'] then "<TAB>".toList else "<NL>".toList

/-- Marks tabs and line feeds as words, each under a name. -/
def spacePlaceholders : Pass where
  name := "space-placeholders".toList
  edits t := (Markup.blankTags t).map fun o => tokenEdit .word (some (blankPlaceholder o.text)) o

/-- The passes that keep tabs and line feeds as tags. -/
def standard : List Pass := [xmlTags, whitespaceTags, entities, words]

/-- The passes that keep tabs and line feeds as words. -/
def withSpacePlaceholders : List Pass := [xmlTags, entities, words, spacePlaceholders]

end Pass

end MarkupTransfer
