import MarkupTransfer.Text.Basic
/-!
# Numerals

Natural numbers in decimal, written without leading zeros and read with any number of them.
-/

namespace MarkupTransfer.Text

/-- A number in decimal. -/
def decimal (n : Nat) : Text := Nat.toDigits 10 n

/-- A number in lower case hexadecimal. -/
def hexadecimal (n : Nat) : Text := Nat.toDigits 16 n

/-- The value of a decimal digit. -/
def digitValue (c : Char) : Nat := c.toNat - '0'.toNat

/-- The value of a character as a hexadecimal digit of either case, if it is one. -/
def hexDigitValue? (c : Char) : Option Nat :=
  if c.isDigit then some (c.toNat - '0'.toNat)
  else if 'a' ≤ c && c ≤ 'f' then some (c.toNat - 'a'.toNat + 10)
  else if 'A' ≤ c && c ≤ 'F' then some (c.toNat - 'A'.toNat + 10)
  else none

/-- The number that a row of decimal digits stands for; no digits, or another character, is none. -/
def natural? (t : Text) : Option Nat :=
  if !t.isEmpty && t.all Char.isDigit then some (t.foldl (fun n c => n * 10 + digitValue c) 0)
  else none

/-- The number that a row of hexadecimal digits stands for. -/
def hexNatural? (t : Text) : Option Nat :=
  if t.isEmpty then none
  else t.foldl (fun n c => n.bind fun n => (hexDigitValue? c).map (n * 16 + ·)) (some 0)

/-- The largest value of a count or an offset. -/
def maxCount : Nat := 0xFFFFFFFFFFFFFFFF

/-- Read a count: digits, with a plus sign in front of them if wished, up to `maxCount`. -/
def count? (t : Text) : Option Nat :=
  let digits := match t with
    | '+' :: rest => rest
    | t => t
  (natural? digits).filter (· ≤ maxCount)

end MarkupTransfer.Text
