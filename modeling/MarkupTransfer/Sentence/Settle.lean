import MarkupTransfer.Sentence.Basic
/-!
# Settling spaces

Once tags have been placed, the spaces around them are made to agree: the space before trailing tags
is kept on the last word, a word's space moves past a tag that has none on its left, a word that
lost its space to a tag gets one back, and then every boundary gets one value that both its sides
record.
-/

namespace MarkupTransfer.Sentence

open Space (mergeSpace)

/-- The last word of a list, changed. -/
def modifyLast (f : Word → Word) (words : List Word) : List Word :=
  words.modify (words.length - 1) f

/-- Keep a blank on the last word where the first tag behind it has a space on its left and the word
has none on its right. -/
def keepTrailing (words : List Word) (tags : List Tag) : List Word :=
  match tags.find? fun t => words.length ≤ t.position with
  | some t =>
    if t.leftSpace.isSome then
      modifyLast (fun w => if w.rightSpace.isSome then w else { w with rightSpace := some .blank })
        words
    else words
  | none => words

/-- Give a word back the space that a tag behind it had. -/
def restoreSpace (w : Word) : Word :=
  if w.tagRightSpaceRequired then { w with rightSpace := some .blank } else w

/-- Move spaces past tags, from left to right. A tag without a space on its left takes the one of
the token before it over to its right side, and where that side is taken already the space goes. The
last token ends without a space. -/
def shiftAfter (previous : Token) : List Token → List Token
  | [] => [previous.withRightSpace none]
  | .tag t :: rest =>
    if previous.rightSpace.isSome && t.leftSpace.isNone then
      previous.withRightSpace none ::
        shiftAfter (.tag { t with rightSpace := t.rightSpace <|> previous.rightSpace }) rest
    else previous :: shiftAfter (.tag t) rest
  | .word w :: rest => previous :: shiftAfter (.word (restoreSpace w)) rest

/-- Move spaces past the tags of a sentence. A tag in front loses the space on its left. -/
def shiftSpaces : List Token → List Token
  | [] => []
  | .tag t :: rest => shiftAfter (.tag { t with leftSpace := none }) rest
  | .word w :: rest => shiftAfter (.word (restoreSpace w)) rest

/-- Let every two neighbours record the space between them. -/
def agreeAfter (previous : Token) : List Token → List Token
  | [] => [previous]
  | token :: rest =>
    let space := mergeSpace none previous.rightSpace token.leftSpace previous.cls token.cls
    previous.withRightSpace space :: agreeAfter (token.withLeftSpace space) rest

/-- Let every two neighbours record the space between them, and trim the outer left edge. -/
def agreeSpaces : List Token → List Token
  | [] => []
  | first :: rest => agreeAfter (first.withLeftSpace none) rest

/-- Make the spaces around tags agree. A sentence without tags stays as it is. -/
def settle (s : Sentence) : Sentence :=
  if s.tags.isEmpty then s
  else
    let kept := { s with words := keepTrailing s.words s.tags }
    { kept.withTokens (agreeSpaces (shiftSpaces kept.tokens)) with spaceConsistent := true }

end MarkupTransfer.Sentence
