/-!
# Text measured in bytes

A text is a list of characters. Every position in a text is an offset in bytes of its UTF-8
form, so this file gives the byte size of a text, says which offsets fall between two
characters, and cuts texts at such offsets. Ranges of bytes are here too, and what classes of
characters are kept as, with the one that every pass asks for: white space.

* `before_append_after`: cutting a text in two loses nothing, at any offset.
* `before_append_size`, `after_append_size`: the offset at the end of a first part cuts it off.
-/

namespace MarkupTransfer

/-- A text, as the list of its characters. -/
abbrev Text := List Char

/-- A range of bytes of a text, `stop` excluded. -/
structure Range where
  start : Nat
  stop : Nat
  deriving DecidableEq, Repr

/-- Whether a range covers nothing. -/
def Range.isEmpty (r : Range) : Bool := decide (r.stop ≤ r.start)

namespace Text

/-! ## Bytes -/

/-- Number of bytes a text takes in UTF-8. -/
def size : Text → Nat
  | [] => 0
  | c :: t => c.utf8Size + size t

@[simp] theorem size_nil : size [] = 0 := rfl

@[simp] theorem size_cons (c : Char) (t : Text) : size (c :: t) = c.utf8Size + size t := rfl

@[simp] theorem size_append (s t : Text) : size (s ++ t) = size s + size t := by
  induction s with
  | nil => simp
  | cons c s ih => simp [ih, Nat.add_assoc]

/-- Whether an offset stands at the edge of a character, the end of the text included. -/
def isBoundary : Text → Nat → Bool
  | [], n => n == 0
  | c :: t, n => n == 0 || (decide (c.utf8Size ≤ n) && isBoundary t (n - c.utf8Size))

/-- The characters that end at or before an offset. -/
def before : Text → Nat → Text
  | [], _ => []
  | c :: t, n => if c.utf8Size ≤ n then c :: before t (n - c.utf8Size) else []

/-- The characters that are left once those ending at or before an offset are dropped. -/
def after : Text → Nat → Text
  | [], _ => []
  | c :: t, n => if c.utf8Size ≤ n then after t (n - c.utf8Size) else c :: t

theorem before_append_after (t : Text) (n : Nat) : before t n ++ after t n = t := by
  induction t generalizing n with
  | nil => rfl
  | cons c t ih =>
    by_cases h : c.utf8Size ≤ n
    · simp [before, after, h, ih]
    · simp [before, after, h]

theorem before_zero (t : Text) : before t 0 = [] := by
  cases t with
  | nil => rfl
  | cons c t => simp [before, Nat.not_le.mpr c.utf8Size_pos]

theorem after_zero (t : Text) : after t 0 = t := by
  cases t with
  | nil => rfl
  | cons c t => simp [after, Nat.not_le.mpr c.utf8Size_pos]

theorem before_append_size (s t : Text) : before (s ++ t) (size s) = s := by
  induction s with
  | nil => exact before_zero t
  | cons c s ih => simp [before, ih]

theorem after_append_size (s t : Text) : after (s ++ t) (size s) = t := by
  induction s with
  | nil => exact after_zero t
  | cons c s ih => simp [after, ih]

/-- The characters between two offsets. -/
def slice (t : Text) (start stop : Nat) : Text := after (before t stop) start

/-- The text with what stands between two offsets replaced. -/
def splice (t : Text) (start stop : Nat) (replacement : Text) : Text :=
  before t start ++ replacement ++ after t stop

/-! ## Classes of characters -/

/-- Closed ranges of code points, in ascending order. -/
abbrev CodeRanges := List (Nat × Nat)

/-- Whether a code point lies in one of the ranges. The search ends at the first range above it. -/
def CodeRanges.contains : CodeRanges → Nat → Bool
  | [], _ => false
  | (low, high) :: ranges, n =>
    if n < low then false else decide (n ≤ high) || CodeRanges.contains ranges n

/-- Whether a character has the Unicode property `White_Space`. -/
def isBlankChar (c : Char) : Bool :=
  let n := c.toNat
  (9 ≤ n && n ≤ 13) || n == 0x20 || n == 0x85 || n == 0xA0 || n == 0x1680 ||
    (0x2000 ≤ n && n ≤ 0x200A) || n == 0x2028 || n == 0x2029 || n == 0x202F || n == 0x205F ||
    n == 0x3000

/-- Whether every character of a text is white space. -/
def isBlank (t : Text) : Bool := t.all isBlankChar

/-- The stretches of a text between white space, without the empty ones. -/
def fields (t : Text) : List Text := (t.splitOnP isBlankChar).filter (!·.isEmpty)

end Text

end MarkupTransfer
