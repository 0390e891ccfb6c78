import SchemaTypes.Yaml.FlowScalar
import SchemaTypes.Yaml.Token

/-!
# Names, tags and directives

The parts of a YAML text that say something about nodes and documents.
-/
namespace SchemaTypes.Yaml.Lex

/-- The name of an anchor, after its indicator. -/
def anchorName : Lex String := do
  let name ← takeWhile isWord
  let after ← rest
  require (!name.isEmpty && (endsWord after || after.head?.any fun c =>
    c == '?' || c == ':' || c == ',' || c == ']' || c == '}' || c == '%' || c == '@' ||
      c == '\x60'))
  pure (String.ofList name)

/-- How many bytes a character has in UTF-8 whose first byte this is. -/
def byteCount? (byte : Nat) : Option Nat :=
  if byte < 0x80 then some 1
  else if 0xC0 ≤ byte && byte < 0xE0 then some 2
  else if 0xE0 ≤ byte && byte < 0xF0 then some 3
  else if 0xF0 ≤ byte && byte < 0xF8 then some 4
  else none

/-- A byte as an escape of a tag. -/
def tagByte : Lex Nat := do
  expect '%'
  hexNumber 2 0

/-- The bytes that follow the first byte of a character, with six bits each. -/
def trailingBytes : (count : Nat) → (acc : Nat) → Lex Nat
  | 0, acc => pure acc
  | count + 1, acc => do
    let byte ← tagByte
    require (0x80 ≤ byte && byte < 0xC0)
    trailingBytes count (acc * 64 + (byte - 0x80))

/-- A character of a tag as the escapes of its bytes. They make none if there is no character with
the number, or if it takes fewer bytes. -/
def escapedTagChar : Lex (Option Char) := do
  let first ← tagByte
  let count ← lift (byteCount? first)
  let n ← trailingBytes (count - 1) (if count = 1 then first else first % Nat.pow 2 (7 - count))
  pure (if n.isValidChar && (Char.ofNat n).utf8Size == count then some (Char.ofNat n) else none)

/-- The characters of tags that need no escape; inside angle brackets there are more. -/
def isTagChar (verbatim : Bool) (c : Char) : Bool :=
  isWord c || ";/?:@&=+$.%!~*'()".contains c || (verbatim && (c == ',' || c == '[' || c == ']'))

/-- The characters of a tag that come next. -/
def tagChars (verbatim : Bool) : Lex (List (Option Char)) :=
  loop (fun (found : List (Option Char)) => do
    match ← rest with
    | c :: _ =>
      if c == '%' then do
        let c ← escapedTagChar
        pure (.again (c :: found))
      else if isTagChar verbatim c then do
        skip 1
        pure (.again (some c :: found))
      else pure (.stop found.reverse)
    | [] => pure (.stop found.reverse)) []

/-- A tag after its exclamation mark, as a handle and what follows it. A tag without a handle has an
empty one, and so has the tag that is an exclamation mark alone. -/
def tag (inFlow : Bool) : Lex Token := do
  let found ←
    if ← accept '<' then do
      let uri ← tagChars true
      require (!uri.isEmpty)
      expect '>'
      pure (Token.tag "" (.upToZero uri))
    else do
      let name ← takeWhile isWord
      if ← accept '!' then do
        let suffix ← tagChars false
        require (!suffix.isEmpty)
        pure (Token.tag (String.ofList ('!' :: name ++ ['!'])) (.upToZero suffix))
      else do
        let suffix := Tag.upToZero (name.map some ++ (← tagChars false))
        if suffix = .ofString "" then pure (Token.tag "" (.ofString "!"))
        else pure (Token.tag "!" suffix)
  let after ← rest
  require (endsWord after || (inFlow && after.head? == some ','))
  pure found

/-- The number of a version has at most nine digits. -/
def versionNumber : Lex Nat := do
  let digits ← takeWhile Char.isDigit
  require (!digits.isEmpty && digits.length ≤ 9)
  pure (Text.decimalValue (Text.digitValues digits))

/-- The versions 1.1 and 1.2 are known. -/
def versionDirective : Lex Token := do
  skipWhile isGap
  let major ← versionNumber
  expect '.'
  let minor ← versionNumber
  require (major == 1 && (minor == 1 || minor == 2))
  pure .versionDirective

def tagDirective : Lex Token := do
  skipWhile isGap
  expect '!'
  let name ← takeWhile isWord
  let closed ← accept '!'
  require (closed || name.isEmpty)
  require (← next isGap)
  skipWhile isGap
  let start ← tagChars true
  require (!start.isEmpty && endsWord (← rest))
  let handle := '!' :: name ++ (if closed then ['!'] else [])
  pure (.tagDirective (String.ofList handle) (.upToZero start))

/-- A directive after its percent sign. -/
def directive : Lex Token := do
  let name ← takeWhile isWord
  require (endsWord (← rest))
  let found ←
    if name = "YAML".toList then versionDirective
    else if name = "TAG".toList then tagDirective
    else refuse
  endOfLine
  pure found

end SchemaTypes.Yaml.Lex
