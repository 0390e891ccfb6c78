/-!
# Places in a YAML text

Which characters a YAML text may hold, what ends a line, and reading a text from one place to the
next.
-/
namespace SchemaTypes.Yaml

/-- The characters that a text may hold. -/
def isPrintable (c : Char) : Bool :=
  let n := c.toNat
  n == 0x09 || n == 0x0A || n == 0x0D || (0x20 ≤ n && n ≤ 0x7E) || n == 0x85 ||
    (0xA0 ≤ n && n ≤ 0xD7FF) || (0xE000 ≤ n && n ≤ 0xFFFD) || 0x10000 ≤ n

def isBreak (c : Char) : Bool :=
  c == '\r' || c == '\n' || c == '\x85' || c == '\u2028' || c == '\u2029'

/-- Blanks within a line. -/
def isGap (c : Char) : Bool :=
  c == ' ' || c == '\t'

def isSpace (c : Char) : Bool :=
  isGap c || isBreak c

/-- The characters of names: of anchors, tag handles and directives. -/
def isWord (c : Char) : Bool :=
  c.isAlphanum || c == '_' || c == '-'

/-- Does a gap, a line break or the end of the text come first? -/
def endsWord : List Char → Bool
  | [] => true
  | c :: _ => isSpace c

/-- The bytes that characters take. -/
def byteSize (cs : List Char) : Nat :=
  cs.foldl (fun size c => size + c.utf8Size) 0

/-- A place in a text of some size: what is left of it, its line, its column, and how many bytes it
is from the start. -/
structure Cursor where
  size : Nat
  rest : List Char
  line : Nat
  column : Nat
  offset : Nat
deriving Repr, Inhabited

namespace Cursor

def start (cs : List Char) : Cursor :=
  ⟨cs.length, cs, 0, 0, 0⟩

/-- The place some characters further in the line. -/
def advance (c : Cursor) (count : Nat) : Cursor :=
  { c with
    rest := c.rest.drop count
    column := c.column + count
    offset := c.offset + byteSize (c.rest.take count) }

/-- The place after a line break. -/
def nextLine (c : Cursor) : Cursor :=
  match c.rest with
  | '\r' :: '\n' :: rest => { c with rest, line := c.line + 1, column := 0, offset := c.offset + 2 }
  | d :: rest =>
    { c with rest, line := c.line + 1, column := 0, offset := c.offset + d.utf8Size }
  | [] => c

/-- Does a line consist of a document marker, or start with one? -/
def atMarker (c : Cursor) (sign : Char) : Bool :=
  match c.rest with
  | a :: b :: d :: rest => c.column == 0 && a == sign && b == sign && d == sign && endsWord rest
  | _ => false

def atDocumentMarker (c : Cursor) : Bool :=
  c.atMarker '-' || c.atMarker '.'

end Cursor

/-- Reading from a place on; nothing where the text is not as it should be. -/
abbrev Lex := StateT Cursor Option

namespace Lex

def refuse {α : Type} : Lex α :=
  fun _ => none

/-- What is there, or a refusal. -/
def lift {α : Type} (value : Option α) : Lex α :=
  fun c => value.map (·, c)

def require (condition : Bool) : Lex Unit :=
  if condition then pure () else refuse

/-- What is left of the text. -/
def rest : Lex (List Char) := do
  pure (← get).rest

/-- Does the next character have the property? -/
def next (p : Char → Bool) : Lex Bool := do
  match ← rest with
  | c :: _ => pure (p c)
  | [] => pure false

def skip (count : Nat) : Lex Unit :=
  modify (·.advance count)

/-- The characters up to the first without the property. None of them may be a line break. -/
def takeWhile (p : Char → Bool) : Lex (List Char) := do
  let cs := (← rest).takeWhile p
  skip cs.length
  pure cs

def skipWhile (p : Char → Bool) : Lex Unit := do
  let _ ← takeWhile p

/-- The character, or a refusal. -/
def expect (c : Char) : Lex Unit := do
  require (← next (· == c))
  skip 1

/-- Passes over a character if it comes next. -/
def accept (c : Char) : Lex Bool := do
  let found ← next (· == c)
  if found then skip 1
  pure found

/-- The line break that comes next, if any. All but the separators of lines and paragraphs are read
as a line feed. -/
def lineBreak : Lex (List Char) := do
  match ← rest with
  | c :: _ =>
    if isBreak c then do
      modify (·.nextLine)
      pure (if c == '\u2028' || c == '\u2029' then [c] else ['\n'])
    else pure []
  | [] => pure []

/-- Passes over the gaps and the comment at the end of a line, and over the line break. -/
def endOfLine : Lex Unit := do
  skipWhile isGap
  if ← next (· == '#') then skipWhile (!isBreak ·)
  require ((← rest).isEmpty || (← next isBreak))
  let _ ← lineBreak

/-- One round of a repetition: another one follows, or it ends with a result. -/
inductive Round (σ α : Type) where
  | again (state : σ)
  | stop (result : α)

def rounds {σ α : Type} (round : σ → Lex (Round σ α)) : (fuel : Nat) → σ → Lex α
  | 0, _ => refuse
  | fuel + 1, state => do
    match ← round state with
    | .again state => rounds round fuel state
    | .stop result => pure result

/-- Repeats rounds that each pass over a character, the last one excepted. -/
def loop {σ α : Type} (round : σ → Lex (Round σ α)) (state : σ) : Lex α := do
  rounds round ((← get).size + 1) state

end Lex
end SchemaTypes.Yaml
