/-!
# Blank characters

Trimming and first lines, with the Unicode notion of white space.
-/
namespace SchemaTypes.Text

/-- The characters with the Unicode property `White_Space`. -/
def isBlank (c : Char) : Bool :=
  let n := c.toNat
  (0x09 ≤ n && n ≤ 0x0D) || n == 0x20 || n == 0x85 || n == 0xA0 || n == 0x1680 ||
    (0x2000 ≤ n && n ≤ 0x200A) || n == 0x2028 || n == 0x2029 || n == 0x202F ||
    n == 0x205F || n == 0x3000

/-- Drops the blanks at both ends. -/
def trimChars (cs : List Char) : List Char :=
  ((cs.dropWhile isBlank).reverse.dropWhile isBlank).reverse

/-- The text without the blanks at its two ends. -/
def trim (s : String) : String :=
  String.ofList (trimChars s.toList)

/-- The first line without its outer blanks, unless nothing is left of it. -/
def firstLine (s : String) : Option String :=
  match trimChars (s.toList.takeWhile (· ≠ '\n')) with
  | [] => none
  | line => some (String.ofList line)

end SchemaTypes.Text
