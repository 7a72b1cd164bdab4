import MarkupTransfer.Alignment
import MarkupTransfer.Sentence.Basic
/-!
# Translations

A translation is a sentence that remembers what it was translated from and how the words align.
-/

namespace MarkupTransfer

/-- A translated sentence. -/
structure Translation where
  sentence : Sentence
  source : Option Sentence
  alignment : Alignment
  deriving DecidableEq

namespace Translation

/-- A translation without tags yet. -/
def ofWords (words : List Word) (source : Sentence) (alignment : Alignment) : Translation :=
  ⟨.ofTokens words [], some source, alignment⟩

/-- A translation that has no source. -/
def detached (words : List Word) (tags : List Tag) : Translation :=
  ⟨.ofTokens words tags, none, .empty⟩

/-- The translation with other tags. -/
def withTags (t : Translation) (tags : List Tag) : Translation :=
  { t with sentence := t.sentence.withTags tags }

end Translation

end MarkupTransfer
