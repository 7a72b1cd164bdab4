import MarkupTransfer.Sentence.Basic
import MarkupTransfer.Markup.Reference
/-!
# Showing sentences

A sentence is shown with its markup, or stripped of it. Either way its words appear as they were
written or by their placeholders, and the space between two tokens is what `Space.mergeSpace` makes
of the two spaces that face each other.
-/

namespace MarkupTransfer

open Space (mergeSpace)

/-- The characters shown for what stands at a boundary. -/
def Space.shown? (s : Option Space) : Text := (s.map Space.shown).getD []

/-- The characters of the text that stand at an outer edge. -/
def Space.literalOnly (s : Option Space) : Text := (s.bind Space.literal?).getD []

namespace Sentence

/-! ## With markup -/

/-- A token inside markup: tags as they are, words escaped. -/
def markupForm (placeholders : Bool) : Token → Text
  | .word w => Markup.escape (w.surface placeholders)
  | .tag t => t.text

/-- The tokens behind a token, each after its space. Where the spaces are known to agree the left
space of a token is shown as it stands. -/
def markupAfter (consistent placeholders : Bool) (previous : Token) : List Token → Text
  | [] => Space.literalOnly previous.rightSpace
  | token :: rest =>
    let space :=
      if consistent then token.leftSpace
      else mergeSpace none previous.rightSpace token.leftSpace previous.cls token.cls
    Space.shown? space ++ markupForm placeholders token ++
      markupAfter consistent placeholders token rest

/-- Tokens with their markup, and the literal spaces at the two ends. -/
def markupOf (consistent placeholders : Bool) : List Token → Text
  | [] => []
  | first :: rest =>
    Space.literalOnly first.leftSpace ++ markupForm placeholders first ++
      markupAfter consistent placeholders first rest

/-- The sentence with its markup. -/
def markup (s : Sentence) (placeholders : Bool) : Text :=
  markupOf s.spaceConsistent placeholders s.tokens

/-! ## Without markup -/

/-- What a walk over tokens remembers while tags are left out: the token before, the space gathered
since the last word, whether a tag without any space has been passed, and whether there was a word
at all. -/
structure StripState where
  previous : Token
  carried : Option Space
  separated : Bool
  foundWord : Bool

/-- The tokens behind a token without their markup. Where tags stood between two words without any
space, one blank keeps the words apart. -/
def strippedAfter (placeholders : Bool) (state : StripState) : List Token → Text
  | [] =>
    match state.previous with
    | .word w => Space.literalOnly w.rightSpace
    | .tag _ => []
  | token :: rest =>
    let boundary := mergeSpace state.carried state.previous.rightSpace token.leftSpace
      state.previous.cls token.cls
    match token with
    | .tag _ =>
      strippedAfter placeholders
        { previous := token
          carried := boundary
          separated := state.separated || (state.foundWord && boundary.isNone)
          foundWord := state.foundWord } rest
    | .word w =>
      let space :=
        if state.foundWord then
          match boundary with
          | some s => s.shown
          | none => if state.separated then [' '] else []
        else []
      space ++ w.surface placeholders ++ strippedAfter placeholders ⟨token, none, false, true⟩ rest

/-- Tokens without their markup. A space at an end is shown only where a word stands there. -/
def strippedOf (placeholders : Bool) : List Token → Text
  | [] => []
  | .word w :: rest =>
    Space.literalOnly w.leftSpace ++ w.surface placeholders ++
      strippedAfter placeholders ⟨.word w, none, false, true⟩ rest
  | .tag t :: rest => strippedAfter placeholders ⟨.tag t, none, false, false⟩ rest

/-- The sentence without its markup. -/
def stripped (s : Sentence) (placeholders : Bool) : Text := strippedOf placeholders s.tokens

end Sentence

end MarkupTransfer
