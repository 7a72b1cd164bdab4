import MarkupTransfer.Draft.Build
import MarkupTransfer.Pass
import MarkupTransfer.Sentence.Render
/-!
# Tokenizing

A text is tokenized by a row of passes, each in an edit session of its own, and the sentence is
built from the marks they leave.
-/

namespace MarkupTransfer

namespace Draft

/-- Let a pass edit the working text. -/
def run (d : Draft) (p : Pass) : Except EditError Draft :=
  match d.edit.recordAll (p.edits d.buffer) with
  | (session, none) => .ok (d.commit session)
  | (_, some error) => .error error

/-- Let passes edit the working text, one after the other. -/
def runAll (d : Draft) : List Pass → Except EditError Draft
  | [] => .ok d
  | p :: rest =>
    match d.run p with
    | .ok d => d.runAll rest
    | .error error => .error error

end Draft

/-- The sentence that a text becomes. -/
def tokenizeWith (options : Options) (passes : List Pass) (t : Text) :
    Except BuildError Sentence :=
  match (Draft.ofText t).runAll passes with
  | .ok d => d.build options
  | .error error => .error (.edit error)

/-- The sentence that a text becomes by the standard passes. -/
def tokenize (t : Text) : Except BuildError Sentence :=
  tokenizeWith .standard Pass.standard t

/-- A text without its markup. -/
def stripText (t : Text) (placeholders : Bool) : Except BuildError Text :=
  (tokenize t).map fun s => s.stripped placeholders

end MarkupTransfer
