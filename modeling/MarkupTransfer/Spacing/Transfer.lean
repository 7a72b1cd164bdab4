import MarkupTransfer.Translation
import MarkupTransfer.Spacing.Separators
/-!
# Carrying spacing over to a translation

Where two neighbours of the source were translated by two neighbours, the space between them is
carried over: it replaces a space that is there already, and it is put in where none is required.
-/

namespace MarkupTransfer.Translation

/-- The pairs of an alignment whose next words are aligned as well. -/
def monotonePairs (a : Alignment) : List (Nat × Nat) :=
  a.toList.filter fun p => a.contains (p.1 + 1) (p.2 + 1)

/-- Whether a space of the source replaces one of the target: where a space is required, if the
target has one; where none is, if the source has one. -/
def takesOver (required : Bool) (source target : Option Space) : Bool :=
  (required && target.isSome) || (!required && source.isSome)

/-- Carry the right space of a source word over to a target word. -/
def copyRight (source target : Word) : Word :=
  if takesOver source.rightSpaceRequired source.rightSpace target.rightSpace then
    { target with rightSpace := source.rightSpace }
  else target

/-- Carry the left space of a source word over to a target word. -/
def copyLeft (source target : Word) : Word :=
  if takesOver source.leftSpaceRequired source.leftSpace target.leftSpace then
    { target with leftSpace := source.leftSpace }
  else target

/-- Carry the space over that stands behind the source word of a pair. -/
def copySpace (source : List Word) (target : List Word) (pair : Nat × Nat) : List Word :=
  match source[pair.1]?, source[pair.1 + 1]? with
  | some left, some right =>
    if pair.2 + 1 < target.length then
      (target.modify pair.2 (copyRight left)).modify (pair.2 + 1) (copyLeft right)
    else target
  | _, _ => target

/-- Carry the spacing of the source over to a translation. `annotator` decides which spaces of the
source are required. -/
def projectSpacing (annotator : Annotator) (t : Translation) : Translation :=
  match t.source with
  | none => t
  | some source =>
    let words := (annotator (.ofWords source.words)).apply source.words
    { t with
      sentence :=
        { t.sentence with
          words := (monotonePairs t.alignment).foldl (copySpace words) t.sentence.words } }

end MarkupTransfer.Translation
