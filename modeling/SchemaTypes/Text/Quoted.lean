import SchemaTypes.Text.Visible

/-!
# Quoted text

The written forms of a text between double quotes: in JSON, in the emitted language, and in messages
about paths.
-/
namespace SchemaTypes.Text

/-- The digit for a number below sixteen, with letters in lower case. -/
def hexDigit (n : Nat) : Char :=
  if n < 10 then Char.ofNat (48 + n) else Char.ofNat (87 + n)

/-- A control character without a short form is written by its number. -/
def escapeJsonChar (c : Char) : List Char :=
  if c = '"' then ['\\', '"']
  else if c = '\\' then ['\\', '\\']
  else if c = '\n' then ['\\', 'n']
  else if c = '\r' then ['\\', 'r']
  else if c = '\t' then ['\\', 't']
  else if c.toNat = 0x08 then ['\\', 'b']
  else if c.toNat = 0x0C then ['\\', 'f']
  else if c.toNat < 0x20 then
    ['\\', 'u', '0', '0', hexDigit (c.toNat / 16), hexDigit (c.toNat % 16)]
  else [c]

def quoteJson (cs : List Char) : List Char :=
  '"' :: cs.flatMap escapeJsonChar ++ ['"']

/-- The characters that cannot stand for themselves in a string literal. -/
def escapeLiteralChar (c : Char) : List Char :=
  if c = '"' then ['\\', '"']
  else if c = '\\' then ['\\', '\\']
  else if c = '\n' then ['\\', 'n']
  else if c = '\r' then ['\\', 'r']
  else if c = '\t' then ['\\', 't']
  else [c]

def literalChars (cs : List Char) : List Char :=
  '"' :: cs.flatMap escapeLiteralChar ++ ['"']

/-- A string literal of the emitted language. -/
def literal (s : String) : String :=
  String.ofList (literalChars s.toList)

/-- A character that does not show by itself is written by its number, if it has no short form. -/
def escapePathChar (c : Char) : List Char :=
  if c.toNat = 0 then ['\\', '0']
  else
    match escapeLiteralChar c with
    | [c] =>
      if isVisible c then [c]
      else ['\\', 'u', '\x7b'] ++ Nat.toDigits 16 c.toNat ++ ['\x7d']
    | escaped => escaped

/-- A path in a message. -/
def quotedPath (path : String) : String :=
  String.ofList ('"' :: path.toList.flatMap escapePathChar ++ ['"'])

end SchemaTypes.Text
