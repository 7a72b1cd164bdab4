import MarkupTransfer.Text.Basic
import MarkupTransfer.Text.WordClass
/-!
# Word segments

Where a text is cut into words and what stands between them. The cuts are those that the
segmentation library makes. The characters on the left of a place are given nearest first, so both
sides are read outward from it.

The library follows the rules of UAX #29 for default word boundaries, but for pictographs that a
joiner ties to what stands before them. There the two differ: to the library a tied pictograph is no
letter, whatever its class, and a mark that waits for a second letter or digit is content with a
tied pictograph, where the rules go by the class that the pictograph has.

* `flatten_segments`: the segments of a text, put together, are the text.
* `segments_ne_nil`: no segment is empty.
-/

namespace MarkupTransfer.Text

open WordClass

/-- Whether a joiner right before a pictograph ties it to what stands there. -/
def isTied (before : Option Char) (c : Char) : Bool :=
  before.map WordClass.ofChar == some .zwj && isPictographic c

/-! ## On the left of a place -/

/-- What is left of a text once the attached characters at its head are dropped. -/
def skipAttached (t : Text) : Text := t.dropWhile fun c => (WordClass.ofChar c).isAttached

/-- The class of the nearest character that is not attached to another one. A tied pictograph has
none for the library, unlike in UAX #29. -/
def mainClass (left : Text) : WordClass :=
  match skipAttached left with
  | [] => .other
  | c :: t => if isTied t.head? c then .other else WordClass.ofChar c

/-- The class of the second character that is not attached to another one. -/
def secondClass (left : Text) : WordClass := mainClass (skipAttached left).tail

/-- Number of regional indicators at the head of a text, attached characters overlooked. -/
def flagRun : Text → Nat
  | [] => 0
  | c :: t =>
    let k := WordClass.ofChar c
    if k == .regionalIndicator then flagRun t + 1 else if k.isAttached then flagRun t else 0

/-! ## On the right of a place -/

/-- Whether what follows a mark lets the mark stay with the character before it: the next character
that is not attached is of a class the mark waits for or, for the library alone, it is a tied
pictograph. -/
def holdsMark (awaits : WordClass → Bool) (mark : Char) : Text → Bool
  | [] => false
  | c :: t =>
    if isTied (some mark) c then true
    else if (WordClass.ofChar c).isAttached then holdsMark awaits c t
    else awaits (WordClass.ofChar c)

/-! ## Cutting -/

/-- Whether the rules that overlook attached characters keep a place together. The character `c` on
the right of the place is not attached. -/
def joinsWords (left : Text) (c : Char) (t : Text) : Bool :=
  let l := mainClass left
  let l₂ := secondClass left
  let r := WordClass.ofChar c
  (l.isLetter && r.isLetter) ||
  (l.isLetter && r.joinsLetters && holdsMark isLetter c t) ||
  (l₂.isLetter && l.joinsLetters && r.isLetter) ||
  (l == .hebrewLetter && r == .singleQuote) ||
  (l == .hebrewLetter && r == .doubleQuote && holdsMark (· == .hebrewLetter) c t) ||
  (l₂ == .hebrewLetter && l == .doubleQuote && r == .hebrewLetter) ||
  (l == .numeric && r == .numeric) ||
  (l.isLetter && r == .numeric) ||
  (l == .numeric && r.isLetter) ||
  (l₂ == .numeric && l.joinsDigits && r == .numeric) ||
  (l == .numeric && r.joinsDigits && holdsMark (· == .numeric) c t) ||
  (l == .katakana && r == .katakana) ||
  ((l.takesConnector || l == .extendNumLet) && r == .extendNumLet) ||
  (l == .extendNumLet && r.takesConnector) ||
  (r == .regionalIndicator && flagRun left % 2 == 1)

/-- Whether the library keeps the two sides of a place together. Line ends stand alone, but for a
line feed after a carriage return; then come tied pictographs, rows of spaces and attached
characters; the other rules overlook what is attached. -/
def joins (left right : Text) : Bool :=
  match left, right with
  | a :: _, b :: t =>
    let l := WordClass.ofChar a
    let r := WordClass.ofChar b
    if l == .cr && r == .lf then true
    else if l.isLineEnd || r.isLineEnd then false
    else if isTied (some a) b then true
    else if l == .segmentSpace && r == .segmentSpace then true
    else if r.isAttached then true
    else joinsWords left b t
  | _, _ => false

/-- The segments of what follows a place, given what stands before it. -/
def segmentsFrom (left : Text) : Text → List Text
  | [] => []
  | c :: t =>
    match segmentsFrom (c :: left) t with
    | [] => [[c]]
    | s :: rest => if joins (c :: left) t then (c :: s) :: rest else [c] :: s :: rest

/-- The word segments of a text. -/
def segments (t : Text) : List Text := segmentsFrom [] t

theorem flatten_segmentsFrom (left t : Text) : (segmentsFrom left t).flatten = t := by
  induction t generalizing left with
  | nil => rfl
  | cons c t ih =>
    have h := ih (c :: left)
    rw [segmentsFrom]
    cases hs : segmentsFrom (c :: left) t with
    | nil =>
      rw [hs] at h
      simp_all
    | cons s rest =>
      rw [hs] at h
      by_cases hj : joins (c :: left) t <;> simp_all

theorem flatten_segments (t : Text) : (segments t).flatten = t := flatten_segmentsFrom [] t

theorem segmentsFrom_ne_nil (left t : Text) : ∀ s ∈ segmentsFrom left t, s ≠ [] := by
  induction t generalizing left with
  | nil => simp [segmentsFrom]
  | cons c t ih =>
    have h := ih (c :: left)
    rw [segmentsFrom]
    cases hs : segmentsFrom (c :: left) t with
    | nil => simp
    | cons s rest =>
      rw [hs] at h
      by_cases hj : joins (c :: left) t <;> simp_all

theorem segments_ne_nil (t : Text) : ∀ s ∈ segments t, s ≠ [] := segmentsFrom_ne_nil [] t

/-- Segments with the offset at which each begins. -/
def placed (offset : Nat) : List Text → List (Nat × Text)
  | [] => []
  | s :: rest => (offset, s) :: placed (offset + size s) rest

end MarkupTransfer.Text
