import MarkupTransfer.Text.Numeral
/-!
# JSON values

Values as sentences are stored in, their compact text, and how values are taken apart. A record may
be read from an object, where fields that are not asked for do not matter, or from an array that
lists all its fields in order.
-/

namespace MarkupTransfer

/-- A JSON value. Numbers that were written with a fraction or an exponent are kept apart from
integers. -/
inductive Json
  | null
  | bool (b : Bool)
  | integer (n : Int)
  | fraction (mantissa : Int) (places : Nat)
  | string (t : Text)
  | array (items : List Json)
  | object (fields : List (Text × Json))
  deriving Inhabited

namespace Json

/-! ## Writing -/

/-- How a character is written inside a string. -/
def writeChar (c : Char) : Text :=
  if c = '"' then ['\\', '"']
  else if c = '\\' then ['\\', '\\']
  else if c = '\x08' then ['\\', 'b']
  else if c = '\x0c' then ['\\', 'f']
  else if c = '\n' then ['\\', 'n']
  else if c = '\r' then ['\\', 'r']
  else if c = '\t' then ['\\', 't']
  else if c.toNat < 0x20 then
    ['\\', 'u', '0', '0'] ++ (if c.toNat < 0x10 then ['0'] else []) ++ Text.hexadecimal c.toNat
  else [c]

/-- A string between double quotes. -/
def writeString (t : Text) : Text := ['"'] ++ t.flatMap writeChar ++ ['"']

/-- An integer in decimal. -/
def writeInteger (n : Int) : Text :=
  if n < 0 then '-' :: Text.decimal n.natAbs else Text.decimal n.natAbs

mutual

/-- A value without any blanks. -/
def write : Json → Text
  | null => ['n', 'u', 'l', 'l']
  | bool true => ['t', 'r', 'u', 'e']
  | bool false => ['f', 'a', 'l', 's', 'e']
  | integer n => writeInteger n
  | fraction m p => writeInteger m ++ ['e', '-'] ++ Text.decimal p
  | string t => writeString t
  | array items => ['['] ++ writeItems items ++ [']']
  | object fields => ['\x7b'] ++ writeFields fields ++ ['\x7d']

/-- The values of an array, separated by commas. -/
def writeItems : List Json → Text
  | [] => []
  | [j] => write j
  | j :: rest => write j ++ ',' :: writeItems rest

/-- The fields of an object, separated by commas. -/
def writeFields : List (Text × Json) → Text
  | [] => []
  | [(name, j)] => writeString name ++ ':' :: write j
  | (name, j) :: rest => writeString name ++ ':' :: write j ++ ',' :: writeFields rest

end

/-! ## Reading -/

/-- The text of a string. -/
def text? : Json → Option Text
  | string t => some t
  | _ => none

/-- The truth value of a boolean. -/
def bool? : Json → Option Bool
  | bool b => some b
  | _ => none

/-- The value of an integer from 0 to `Text.maxCount`. -/
def count? : Json → Option Nat
  | integer n => if 0 ≤ n ∧ n ≤ Text.maxCount then some n.toNat else none
  | _ => none

/-- The items of an array, each of them read. -/
def list? {α : Type} (read : Json → Option α) : Json → Option (List α)
  | array items => items.mapM read
  | _ => none

/-- The value of a field, where present. A field that is there twice cannot be read. -/
def field? (fields : List (Text × Json)) (name : Text) : Option (Option Json) :=
  match fields.filter fun field => field.1 == name with
  | [] => some none
  | [(_, j)] => some (some j)
  | _ => none

/-- The values of the named fields of a record, where present. -/
def record? (names : List Text) : Json → Option (List (Option Json))
  | object fields => names.mapM (field? fields)
  | array items => if items.length = names.length then some (items.map some) else none
  | _ => none

/-- A field that may be missing or null. -/
def optional? {α : Type} (read : Json → Option α) : Option Json → Option (Option α)
  | none => some none
  | some null => some none
  | some j => (read j).map some

/-- The name of a variant and what it holds, from a bare name or an object with one field. -/
def variant? : Json → Option (Text × Option Json)
  | string name => some (name, none)
  | object [(name, j)] => some (name, some j)
  | _ => none

/-- The name of a variant that holds nothing. -/
def bareVariant? (j : Json) : Option Text :=
  match variant? j with
  | some (name, none) => some name
  | some (name, some null) => some name
  | _ => none

end Json

end MarkupTransfer
