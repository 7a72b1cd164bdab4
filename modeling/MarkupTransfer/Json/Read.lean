import MarkupTransfer.Json
/-!
# Reading the text of JSON values

A value is read from the head of a text, and what stands behind it is left over. Every value takes a
character at least, so that the length of the text bounds how deep values can stand inside each
other and how many there can be.
-/

namespace MarkupTransfer.Json

/-- A text without the blanks that may stand in front of a value or a sign. -/
def skipBlanks (t : Text) : Text :=
  t.dropWhile fun c => c == ' ' || c == '\t' || c == '\n' || c == '\r'

/-! ## Strings -/

/-- What a string is written with: a character, or the number of a UTF-16 unit. -/
inductive StringPart
  | char (c : Char)
  | unit (n : Nat)
  deriving DecidableEq, Repr

/-- The character that a letter behind a backslash stands for. -/
def escaped? (c : Char) : Option Char :=
  [('"', '"'), ('\\', '\\'), ('/', '/'), ('b', '\x08'), ('f', '\x0c'), ('n', '\n'), ('r', '\r'),
    ('t', '\t')].lookup c

/-- The parts of a string up to its closing quote, and what stands behind that. Control characters
may only be written as escapes. -/
def readParts : Text → Option (List StringPart × Text)
  | [] => none
  | '\\' :: 'u' :: a :: b :: c :: d :: rest =>
    (Text.hexNatural? [a, b, c, d]).bind fun n =>
      (readParts rest).map fun (parts, rest) => (.unit n :: parts, rest)
  | '\\' :: c :: rest =>
    (escaped? c).bind fun c => (readParts rest).map fun (parts, rest) => (.char c :: parts, rest)
  | c :: rest =>
    if c = '"' then some ([], rest)
    else if c.toNat < 0x20 || c = '\\' then none
    else (readParts rest).map fun (parts, rest) => (.char c :: parts, rest)

/-- The text that parts of a string stand for. A unit of the first half of the surrogates needs one
of the second half behind it. -/
def joinParts : List StringPart → Option Text
  | [] => some []
  | .char c :: parts => (joinParts parts).map (c :: ·)
  | .unit high :: .unit low :: parts =>
    if 0xD800 ≤ high && high ≤ 0xDBFF then
      if 0xDC00 ≤ low && low ≤ 0xDFFF then
        (joinParts parts).map
          (Char.ofNat (0x10000 + (high - 0xD800) * 0x400 + (low - 0xDC00)) :: ·)
      else none
    else if 0xDC00 ≤ high && high ≤ 0xDFFF then none
    else (joinParts (.unit low :: parts)).map (Char.ofNat high :: ·)
  | .unit n :: parts =>
    if 0xD800 ≤ n && n ≤ 0xDFFF then none else (joinParts parts).map (Char.ofNat n :: ·)

/-- The text of a string whose opening quote has been read, and what stands behind it. -/
def readString (t : Text) : Option (Text × Text) :=
  (readParts t).bind fun (parts, rest) => (joinParts parts).map fun text => (text, rest)

/-! ## Numbers -/

/-- The digits in front of the point, which do not begin with a needless zero. -/
def readWhole (t : Text) : Option (Nat × Text) :=
  let (digits, rest) := t.span Char.isDigit
  (Text.natural? digits).bind fun n => if Text.decimal n = digits then some (n, rest) else none

/-- The digits behind the point, if there is one. -/
def readDecimals : Text → Option (Option Text × Text)
  | '.' :: t =>
    let (digits, rest) := t.span Char.isDigit
    if digits.isEmpty then none else some (some digits, rest)
  | t => some (none, t)

/-- The exponent, if there is one. -/
def readExponent (t : Text) : Option (Option Int × Text) :=
  match t with
  | c :: t' =>
    if c = 'e' || c = 'E' then
      let (negative, t') := match t' with
        | '-' :: t' => (true, t')
        | '+' :: t' => (false, t')
        | t' => (false, t')
      let (digits, rest) := t'.span Char.isDigit
      (Text.natural? digits).map fun n => (some (if negative then -n else n), rest)
    else some (none, t)
  | [] => some (none, [])

/-- The number that is written with a sign, digits before and behind a point, and an exponent.
A zero with a minus sign is no integer. -/
def ofParts (negative : Bool) (whole : Nat) (decimals : Option Text) (exponent : Option Int) :
    Json :=
  let signed (n : Nat) : Int := if negative then -n else n
  match decimals, exponent with
  | none, none => if negative && whole == 0 then fraction 0 0 else integer (signed whole)
  | _, _ =>
    let digits := decimals.getD []
    let mantissa := whole * Nat.pow 10 digits.length + (Text.natural? digits).getD 0
    let scale := exponent.getD 0 - digits.length
    fraction (signed (mantissa * Nat.pow 10 scale.toNat)) (-scale).toNat

/-- A number whose sign has been read, and what stands behind it. -/
def readUnsigned (negative : Bool) (t : Text) : Option (Json × Text) :=
  (readWhole t).bind fun (whole, t) =>
    (readDecimals t).bind fun (decimals, t) =>
      (readExponent t).map fun (exponent, t) => (ofParts negative whole decimals exponent, t)

/-- A number, and what stands behind it. -/
def readNumber : Text → Option (Json × Text)
  | '-' :: t => readUnsigned true t
  | t => readUnsigned false t

/-! ## Values -/

/-- A name that stands for a value, and what stands behind it. -/
def readName (t : Text) : Option (Json × Text) :=
  [(['n', 'u', 'l', 'l'], null), (['t', 'r', 'u', 'e'], bool true),
    (['f', 'a', 'l', 's', 'e'], bool false)].findSome? fun (name, j) =>
      if name.isPrefixOf t then some (j, t.drop name.length) else none

mutual

/-- The value at the head of a text, and what stands behind it. -/
def readValue : Nat → Text → Option (Json × Text)
  | 0, _ => none
  | fuel + 1, t =>
    match skipBlanks t with
    | [] => none
    | c :: rest =>
      if c = '"' then (readString rest).map fun (text, rest) => (string text, rest)
      else if c = '[' then
        match skipBlanks rest with
        | ']' :: rest => some (array [], rest)
        | rest => (readItems fuel rest).map fun (items, rest) => (array items, rest)
      else if c = '\x7b' then
        match skipBlanks rest with
        | '\x7d' :: rest => some (object [], rest)
        | rest => (readFields fuel rest).map fun (fields, rest) => (object fields, rest)
      else readName (c :: rest) <|> readNumber (c :: rest)

/-- The values of an array that has some, and what stands behind the array. -/
def readItems : Nat → Text → Option (List Json × Text)
  | 0, _ => none
  | fuel + 1, t =>
    (readValue fuel t).bind fun (j, rest) =>
      match skipBlanks rest with
      | ',' :: rest => (readItems fuel rest).map fun (items, rest) => (j :: items, rest)
      | ']' :: rest => some ([j], rest)
      | _ => none

/-- The fields of an object that has some, and what stands behind the object. -/
def readFields : Nat → Text → Option (List (Text × Json) × Text)
  | 0, _ => none
  | fuel + 1, t =>
    match skipBlanks t with
    | '"' :: rest =>
      (readString rest).bind fun (name, rest) =>
        match skipBlanks rest with
        | ':' :: rest =>
          (readValue fuel rest).bind fun (j, rest) =>
            match skipBlanks rest with
            | ',' :: rest => (readFields fuel rest).map fun (fields, rest) =>
              ((name, j) :: fields, rest)
            | '\x7d' :: rest => some ([(name, j)], rest)
            | _ => none
        | _ => none
    | _ => none

end

/-- The value that a text is the text of, with blanks around it if wished. -/
def read? (t : Text) : Option Json :=
  (readValue t.length t).bind fun (j, rest) => if (skipBlanks rest).isEmpty then some j else none

end MarkupTransfer.Json
