import MarkupTransfer.Space
/-!
# Words

A word has a placeholder, the normalised form it is known by, and the text it was written as where
that was recorded.
-/

namespace MarkupTransfer

/-- A word of a sentence. A side is flagged as required where the word is known to need a space
there; `tagRightSpaceRequired` says that a tag behind the word had a space that has to come back on
the word once tags are stripped. -/
structure Word where
  text : Option Text
  placeholder : Text
  leftSpace : Option Space
  rightSpace : Option Space
  leftSpaceRequired : Bool
  rightSpaceRequired : Bool
  tagRightSpaceRequired : Bool
  deriving DecidableEq, Repr

namespace Word

/-- A new word; a side is required where it has a space. -/
def ofText (text : Option Text) (placeholder : Text) (left right : Option Space) : Word where
  text := text
  placeholder := placeholder
  leftSpace := left
  rightSpace := right
  leftSpaceRequired := left.isSome
  rightSpaceRequired := right.isSome
  tagRightSpaceRequired := false

/-- The form shown for a word: the placeholder where asked for, or where no text was recorded. -/
def surface (w : Word) (placeholders : Bool) : Text :=
  if placeholders then w.placeholder else w.text.getD w.placeholder

end Word

end MarkupTransfer
