import MarkupTransfer.Markup.EntityName
import MarkupTransfer.Text.Numeral
import MarkupTransfer.Text.Scan
/-!
# Character references

`&name;`, `&#33;` and `&#x21;` stand for one character each. A reference that stands for nothing is
text like any other. Text is shown inside markup with its ampersands and angle brackets written as
references.

* `isReferenceBody_of_decode`: what can be decoded has the form of a reference.
* `escape_append`: escaping goes character by character.
-/

namespace MarkupTransfer.Markup

/-! ## Decoding -/

/-- The form of an entity name: a letter, then letters and digits. -/
def isEntityName : Text → Bool
  | [] => false
  | c :: t => c.isAlpha && t.all Char.isAlphanum

/-- Whether a character is a hexadecimal digit. -/
def isHexDigit (c : Char) : Bool := (Text.hexDigitValue? c).isSome

/-- Whether a text has the form of what stands between the ampersand and the semicolon of a
reference. -/
def isReferenceBody : Text → Bool
  | '#' :: 'x' :: t => !t.isEmpty && t.all isHexDigit
  | '#' :: 'X' :: t => !t.isEmpty && t.all isHexDigit
  | '#' :: t => !t.isEmpty && t.all Char.isDigit
  | t => isEntityName t

/-- The character with a number, unless it is a control character that no reference may stand for or
no character at all. -/
def numbered? (n : Nat) : Option Char :=
  if n.isValidChar && (0x20 ≤ n || n == 9 || n == 10 || n == 12 || n == 13) then
    some (Char.ofNat n)
  else none

/-- The character that stands for what is between the ampersand and the semicolon of a reference. -/
def decode? (body : Text) : Option Char :=
  if isReferenceBody body then
    match body with
    | '#' :: 'x' :: t => (Text.hexNatural? t).bind numbered?
    | '#' :: 'X' :: t => (Text.hexNatural? t).bind numbered?
    | '#' :: t => (Text.natural? t).bind numbered?
    | name => (EntityName.codePoint? name).map Char.ofNat
  else none

theorem isReferenceBody_of_decode {body : Text} {c : Char} (h : decode? body = some c) :
    isReferenceBody body = true := by
  unfold decode? at h
  split at h
  · assumption
  · simp at h

/-- Number of characters of the reference at the head of a text; 0 where there is none. -/
def referenceLength : Text → Nat
  | '&' :: t =>
    let body := t.takeWhile (· != ';')
    if isReferenceBody body && body.length < t.length then body.length + 2 else 0
  | _ => 0

/-- Everything in a text that has the form of a reference. -/
def references (t : Text) : List Text.Occurrence := Text.scan referenceLength t

/-- The character that a reference stands for, given with its ampersand and semicolon. -/
def decodeReference? (t : Text) : Option Char := decode? (t.drop 1).dropLast

/-- Decode the references of a text. `held` is what has been read since an ampersand that may begin
a reference. -/
def unescapeFrom : Option Text → Text → Text
  | none, [] => []
  | some held, [] => '&' :: held
  | none, c :: t => if c = '&' then unescapeFrom (some []) t else c :: unescapeFrom none t
  | some held, c :: t =>
    if c = '&' then '&' :: held ++ unescapeFrom (some []) t
    else if c = ';' then
      match decode? held with
      | some d => d :: unescapeFrom none t
      | none => '&' :: held ++ ';' :: unescapeFrom none t
    else unescapeFrom (some (held ++ [c])) t

/-- A text with its references decoded, once. -/
def unescape (t : Text) : Text := unescapeFrom none t

/-! ## Escaping -/

/-- How a character is shown inside markup. -/
def escapeChar (c : Char) : Text :=
  match c with
  | '&' => ['&', 'a', 'm', 'p', ';']
  | '<' => ['&', 'l', 't', ';']
  | '>' => ['&', 'g', 't', ';']
  | c => [c]

/-- A text as it is shown inside markup. -/
def escape (t : Text) : Text := t.flatMap escapeChar

@[simp] theorem escape_nil : escape [] = [] := rfl

@[simp] theorem escape_append (s t : Text) : escape (s ++ t) = escape s ++ escape t := by
  simp [escape]

end MarkupTransfer.Markup
