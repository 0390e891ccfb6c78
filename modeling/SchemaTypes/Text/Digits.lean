/-!
# Digits

The values of decimal and hexadecimal digits.
-/
namespace SchemaTypes.Text

/-- The value of a hexadecimal digit. -/
def hexValue? (c : Char) : Option Nat :=
  if c.isDigit then some (c.toNat - 48)
  else if 'a' ≤ c && c ≤ 'f' then some (c.toNat - 87)
  else if 'A' ≤ c && c ≤ 'F' then some (c.toNat - 55)
  else none

/-- The values of the decimal digits at the front. -/
def digitValues (cs : List Char) : List Nat :=
  (cs.takeWhile Char.isDigit).map (·.toNat - 48)

/-- The number with the digits. -/
def decimalValue (digits : List Nat) : Nat :=
  digits.foldl (fun acc d => acc * 10 + d) 0

/-- The sign at the front, if there is one, and what follows it. -/
def signPart : List Char → Bool × List Char
  | '+' :: rest => (false, rest)
  | '-' :: rest => (true, rest)
  | cs => (false, cs)

end SchemaTypes.Text
