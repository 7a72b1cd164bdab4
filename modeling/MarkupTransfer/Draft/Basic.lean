import MarkupTransfer.Draft.Provenance
import MarkupTransfer.Draft.Session
import MarkupTransfer.SortedSet
/-!
# Drafts

A draft is a sentence in the making: its source, the working text that edit sessions have made of
it, and the marks they left, anchored to the source.
-/

namespace MarkupTransfer

/-- A sentence in the making. Without a source a draft is idle. -/
structure Draft where
  source : Option Text
  buffer : Text
  marks : List Mark
  provenance : Provenance
  annotations : SortedSet Text compare
  deriving DecidableEq

namespace Draft

/-- A draft without a source. -/
def idle : Draft := ⟨none, [], [], .identity 0, .empty⟩

/-- A new draft of a text. -/
def ofText (t : Text) : Draft := ⟨some t, t, [], .identity t.size, .empty⟩

/-- The draft with one more annotation. -/
def annotate (d : Draft) (name : Text) : Draft :=
  { d with annotations := d.annotations.insert name }

/-- Open an edit session. -/
def edit (d : Draft) : Session := .ofText d.buffer

/-- A mark moved to the range of the source that a range of the working text came from. -/
def anchor (d : Draft) (m : Mark) (start stop : Nat) : Mark :=
  { m with start := d.provenance.startOf start, stop := d.provenance.stopFrom start stop }

/-- Apply marks in order. So far the replacements of the session have added `grown` bytes to the
working text and taken `shrunk` bytes from it. -/
def apply (grown shrunk : Nat) (d : Draft) : List Mark → Draft
  | [] => d
  | m :: rest =>
    let start := m.start + grown - shrunk
    let stop := m.stop + grown - shrunk
    let marked := { d with marks := d.marks ++ [d.anchor m start stop] }
    match m.replacement with
    | none => apply grown shrunk marked rest
    | some r =>
      apply (grown + r.size) (shrunk + (stop - start))
        { marked with
          buffer := d.buffer.splice start stop r
          provenance := d.provenance.replace start stop r.size } rest

/-- Make the replacements of a session and keep its marks. -/
def commit (d : Draft) (s : Session) : Draft := d.apply 0 0 s.pending

end Draft

end MarkupTransfer
