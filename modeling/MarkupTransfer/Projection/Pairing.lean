import MarkupTransfer.Sentence.Basic
/-!
# Pairs of tags

A closing tag ends the nearest element of its name that is still open. Elements opened after that
one stay without an end, as do closing tags that end nothing; they are kept as tags that stand
alone, so no two pairs cross.
-/

namespace MarkupTransfer

/-- Tags in document order, and which of them are pairs, each by the index of its opening and of its
closing tag. -/
structure Pairing where
  tags : List Tag
  pairs : List (Nat × Nat)
  deriving DecidableEq, Repr

namespace Pairing

/-- Tags without any pairs. -/
def unpaired (tags : List Tag) : Pairing := ⟨Sentence.sortTags tags, []⟩

/-- The pairs among tags of which the first one has a given index. `opened` are the opening tags met
so far that may still be closed, the latest first. -/
def pairsFrom (index : Nat) (opened : List (Nat × Tag)) : List Tag → List (Nat × Nat)
  | [] => []
  | t :: rest =>
    if t.begins then pairsFrom (index + 1) ((index, t) :: opened) rest
    else if t.type = .closing then
      match opened.dropWhile fun o => !t.closes o.2 with
      | [] => pairsFrom (index + 1) opened rest
      | o :: outer => (o.1, index) :: pairsFrom (index + 1) outer rest
    else pairsFrom (index + 1) opened rest

/-- Tags with their pairs. -/
def ofTags (tags : List Tag) : Pairing :=
  let sorted := Sentence.sortTags tags
  ⟨sorted, pairsFrom 0 [] sorted⟩

/-- The tag that closes the element which a tag opens. -/
def closing? (p : Pairing) (index : Nat) : Option Nat := p.pairs.lookup index

/-- The tag that opens the element which a tag closes. -/
def opening? (p : Pairing) (index : Nat) : Option Nat :=
  (p.pairs.find? fun pair => pair.2 == index).map Prod.fst

/-- The other tag of the pair to which a tag belongs. -/
def partner? (p : Pairing) (index : Nat) : Option Nat := p.closing? index <|> p.opening? index

end Pairing

end MarkupTransfer
