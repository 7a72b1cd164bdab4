import MarkupTransfer.Text.WordClass.Letter
import MarkupTransfer.Text.WordClass.Attached
import MarkupTransfer.Text.WordClass.Number
/-!
# Word classes

The value of the Unicode property `Word_Break` of a character, by which texts are cut into word
segments.
-/

namespace MarkupTransfer.Text

/-- The values of the Unicode property `Word_Break`. -/
inductive WordClass
  | cr
  | lf
  | newline
  | extend
  | zwj
  | regionalIndicator
  | format
  | katakana
  | hebrewLetter
  | aLetter
  | singleQuote
  | doubleQuote
  | midNumLet
  | midLetter
  | midNum
  | numeric
  | extendNumLet
  | segmentSpace
  | other
  deriving DecidableEq, Repr

namespace WordClass

/-- The class of an ASCII character. -/
def ofAscii (c : Char) : WordClass :=
  if c.isAlpha then aLetter
  else if c.isDigit then numeric
  else match c with
    | ' ' => segmentSpace
    | '\r' => cr
    | '\n' => lf
    | '\x0b' => newline
    | '\x0c' => newline
    | '"' => doubleQuote
    | '\'' => singleQuote
    | '.' => midNumLet
    | ':' => midLetter
    | ',' => midNum
    | ';' => midNum
    | '_' => extendNumLet
    | _ => other

/-- The classes that are kept as ranges of code points, with their ranges. -/
def tables : List (WordClass × CodeRanges) :=
  [(extend, extendRanges), (format, formatRanges), (aLetter, aLetterRanges),
    (hebrewLetter, hebrewLetterRanges), (katakana, katakanaRanges), (numeric, numericRanges),
    (midNumLet, midNumLetRanges), (midLetter, midLetterRanges), (midNum, midNumRanges),
    (extendNumLet, extendNumLetRanges), (segmentSpace, segmentSpaceRanges)]

/-- The class of a character. -/
def ofChar (c : Char) : WordClass :=
  let n := c.toNat
  if n < 0x80 then ofAscii c
  else if n == 0x85 || n == 0x2028 || n == 0x2029 then newline
  else if n == 0x200D then zwj
  else if 0x1F1E6 ≤ n && n ≤ 0x1F1FF then regionalIndicator
  else match tables.find? fun entry => entry.2.contains n with
    | some (k, _) => k
    | none => other

/-- Line ends, on both sides of which a word always ends. -/
def isLineEnd : WordClass → Bool
  | cr | lf | newline => true
  | _ => false

/-- Classes that go with the character before and are overlooked by most rules. -/
def isAttached : WordClass → Bool
  | extend | format | zwj => true
  | _ => false

/-- Letters of alphabets and of the Hebrew script. -/
def isLetter : WordClass → Bool
  | aLetter | hebrewLetter => true
  | _ => false

/-- Punctuation that may stand between two letters. -/
def joinsLetters : WordClass → Bool
  | midLetter | midNumLet | singleQuote => true
  | _ => false

/-- Punctuation that may stand between two digits. -/
def joinsDigits : WordClass → Bool
  | midNum | midNumLet | singleQuote => true
  | _ => false

/-- Classes to which a connector attaches. -/
def takesConnector : WordClass → Bool
  | aLetter | hebrewLetter | numeric | katakana => true
  | _ => false

end WordClass

/-- Whether a character has the property `Extended_Pictographic`. -/
def isPictographic (c : Char) : Bool := pictographicRanges.contains c.toNat

end MarkupTransfer.Text
