import MarkupTransfer.Translation
import MarkupTransfer.Projection.Reach
import MarkupTransfer.Projection.SpanTree
import MarkupTransfer.Sentence.Settle
/-!
# Carrying tags over to a translation

The tags of the source are paired, their spans nested, and every span is given the place in the
translation to which the alignment leads. The spaces around the tags are settled at the end.
-/

namespace MarkupTransfer.Translation

/-- The tags of a source sentence at their places among `targetCount` translated words. -/
def projectedTags (policy : UnalignedPolicy) (source : Sentence) (reach : Reach) : List Tag :=
  let pairing := Pairing.ofTags source.tags
  let tree := SpanTree.ofSpans source.words.length (pairing.spans source.words.length)
  (tree.project reach.targetCount (reach.span policy)).toTags pairing.tags

/-- Put the tags of the source into a translation. Without tags in the source, or without an
alignment of its words, the translation stays as it is; the tags of a source without words are taken
over in order. -/
def projectTags (policy : UnalignedPolicy) (t : Translation) :
    Except ProjectionError Translation :=
  match t.source with
  | none => .error .missingSource
  | some source =>
    if source.tags.isEmpty then .ok t
    else if source.words.isEmpty then .ok (t.withTags (Sentence.sortTags source.tags))
    else if t.alignment.isEmpty then .ok t
    else
      match Reach.ofAlignment t.alignment source.words.length t.sentence.words.length with
      | .error e => .error e
      | .ok reach =>
        .ok { t with
          sentence := (t.sentence.withTags (projectedTags policy source reach)).settle }

end MarkupTransfer.Translation
