import MarkupTransfer.Tag
/-!
# Markup dialects

In some dialects a tag does something else than its form says: in XLIFF `<bx/>` begins a sequence
that `<ex/>` ends. A dialect retypes the tags of a sentence once all of them are known.
-/

namespace MarkupTransfer

/-- A dialect of markup with types of its own. -/
inductive Dialect
  | xliff
  deriving DecidableEq, Repr

namespace Dialect

/-- Every dialect, in the order in which they are tried. -/
def all : List Dialect := [xliff]

/-- The tag names of a dialect. -/
def names : Dialect → List Text
  | xliff =>
    ["g".toList, "x".toList, "ex".toList, "bx".toList, "bpt".toList, "ept".toList, "ph".toList,
      "it".toList, "mrk".toList]

/-- The names of tags that begin an element. -/
def openingNames : Dialect → List Text
  | xliff => ["bx".toList]

/-- The names of tags that end an element. -/
def closingNames : Dialect → List Text
  | xliff => ["ex".toList]

/-- Whether all markup among tags belongs to a dialect. Blanks kept as tags do not count. -/
def isCompliant (d : Dialect) (tags : List Tag) : Bool :=
  tags.all fun t => t.kind != .xml || d.names.contains t.name

/-- The first dialect to which all tags belong. -/
def detect? (tags : List Tag) : Option Dialect := all.find? fun d => d.isCompliant tags

/-- A tag with the type that a dialect gives it. -/
def retype (d : Dialect) (t : Tag) : Tag :=
  if d.closingNames.contains t.name then { t with type := .closing }
  else if d.openingNames.contains t.name then { t with type := .opening }
  else t

end Dialect

/-- Which dialect, if any, applies to the tags of a sentence: none, the one they all belong to, or a
given one. -/
inductive DialectPolicy
  | plain
  | detect
  | force (d : Dialect)
  deriving DecidableEq, Repr

namespace DialectPolicy

/-- The dialect that applies to tags. -/
def dialect? (p : DialectPolicy) (tags : List Tag) : Option Dialect :=
  match p with
  | plain => none
  | detect => if tags.isEmpty then none else Dialect.detect? tags
  | force d => some d

/-- Tags with the types that the dialect gives them. -/
def retype (p : DialectPolicy) (tags : List Tag) : List Tag :=
  match p.dialect? tags with
  | none => tags
  | some d => tags.map d.retype

end DialectPolicy

end MarkupTransfer
