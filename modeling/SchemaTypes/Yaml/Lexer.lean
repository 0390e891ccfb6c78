import SchemaTypes.Yaml.BlockScalar
import SchemaTypes.Yaml.FlowScalar
import SchemaTypes.Yaml.Layout
import SchemaTypes.Yaml.Tag

/-!
# Tokens of a YAML text

Which token comes next at a place, and what it does to the layout.
-/
namespace SchemaTypes.Yaml

namespace Lex

/-- Passes over the gaps, comments and line breaks before a token. A line may start with a byte
order mark. Where a key may begin outside brackets, a tab may not stand. -/
def toToken (l : Layout) : Lex Layout :=
  loop (fun (l : Layout) => do
    if (← get).column == 0 && (← next (· == '\uFEFF')) then skip 1
    skipWhile fun c => c == ' ' || (c == '\t' && (l.inFlow || !l.keyAllowed))
    if ← next (· == '#') then skipWhile (!isBreak ·)
    if ← next isBreak then do
      let _ ← lineBreak
      pure (.again (if l.inFlow then l else { l with keyAllowed := true }))
    else pure (.stop l)) l

/-- A marker or a directive, which ends all indented collections. -/
def atMargin (l : Layout) (found : Lex Token) : Lex Layout := do
  let l ← lift l.dedentAll.dropKey
  pure ({ l with keyAllowed := false }.emit (← found))

/-- A token that may be the start of a key, or a key as a whole. -/
def keyed (l : Layout) (found : Lex Token) : Lex Layout := do
  let l ← lift (l.startKey (← get))
  pure ({ l with keyAllowed := false }.emit (← found))

/-- An opening bracket. -/
def openBracket (l : Layout) (t : Token) : Lex Layout := do
  let l ← lift (l.startKey (← get))
  skip 1
  pure ({ l with keyAllowed := true, key := none, outer := l.key :: l.outer }.emit t)

/-- A closing bracket. Whether it fits the opening one is not looked at here. -/
def closeBracket (l : Layout) (t : Token) : Lex Layout := do
  let l ← lift l.dropKey
  skip 1
  let (key, outer) := match l.outer with
    | key :: outer => (key, outer)
    | [] => (l.key, [])
  pure ({ l with keyAllowed := false, key, outer }.emit t)

def comma (l : Layout) : Lex Layout := do
  let l ← lift l.dropKey
  skip 1
  pure ({ l with keyAllowed := true }.emit .comma)

/-- The start of a collection by one of its indicators, at the place of the indicator. -/
def indentAt (l : Layout) (t : Token) : Lex Layout := do
  if l.inFlow then pure l
  else do
    require l.keyAllowed
    pure (l.indent (← get).column l.tokens.size t)

/-- The dash of a list's item. -/
def item (l : Layout) : Lex Layout := do
  let l ← indentAt l .blockList
  let l ← lift l.dropKey
  skip 1
  pure ({ l with keyAllowed := true }.emit .item)

/-- The question mark before a key. -/
def key (l : Layout) : Lex Layout := do
  let l ← indentAt l .blockTable
  let l ← lift l.dropKey
  skip 1
  pure ({ l with keyAllowed := !l.inFlow }.emit .key)

/-- The colon before a value. What began on the line before it becomes a key. -/
def value (l : Layout) : Lex Layout := do
  let l ← match l.key with
    | some k =>
      let l := (l.insertToken k.position .key).indent k.place.column k.position .blockTable
      pure { l with key := none, keyAllowed := false }
    | none => do
      let l ← indentAt l .blockTable
      pure { l with keyAllowed := !l.inFlow }
  skip 1
  pure (l.emit .value)

def blockScalar (l : Layout) (style : Style) : Lex Layout := do
  let l ← lift l.dropKey
  skip 1
  let text ← block (style == .folded) l.columns.head?
  pure ({ l with keyAllowed := true }.emit (.scalar style text))

def quotedScalar (l : Layout) (quote : Char) : Lex Layout :=
  keyed l do
    skip 1
    pure (.scalar .quoted (← quoted quote))

def plainScalar (l : Layout) : Lex Layout := do
  let l ← lift (l.startKey (← get))
  let (text, brokenOff) ← plain l.inFlow l.margin
  pure ({ l with keyAllowed := brokenOff }.emit (.scalar .plain text))

/-- The characters that begin no plain scalar by themselves. -/
def isIndicator (c : Char) : Bool :=
  "-?:,[]\x7b\x7d#&*!|>'\"%@\x60".contains c

/-- Can a plain scalar begin with this text? -/
def startsPlain (inFlow : Bool) : List Char → Bool
  | [] => false
  | c :: after =>
    !(isSpace c || isIndicator c) || (c == '-' && !after.head?.any isGap) ||
      (!inFlow && (c == '?' || c == ':') && !endsWord after)

/-- The token after the gaps. -/
def token (l : Layout) : Lex Layout := do
  let here ← get
  match here.rest with
  | [] => refuse
  | c :: after =>
    let isAlone := l.inFlow || endsWord after
    if here.column == 0 && c == '%' then atMargin l do skip 1; directive
    else if here.atMarker '-' then atMargin l do skip 3; pure .documentStart
    else if here.atMarker '.' then atMargin l do skip 3; pure .documentEnd
    else if c == '[' then openBracket l .openList
    else if c == '{' then openBracket l .openTable
    else if c == ']' then closeBracket l .closeList
    else if c == '}' then closeBracket l .closeTable
    else if c == ',' then comma l
    else if c == '-' && endsWord after then item l
    else if c == '?' && isAlone then key l
    else if c == ':' && isAlone then value l
    else if c == '*' then keyed l do skip 1; pure (.alias (← anchorName))
    else if c == '&' then keyed l do skip 1; pure (.anchor (← anchorName))
    else if c == '!' then keyed l do skip 1; tag l.inFlow
    else if c == '|' && !l.inFlow then blockScalar l .literal
    else if c == '>' && !l.inFlow then blockScalar l .folded
    else if c == '\'' || c == '"' then quotedScalar l c
    else if startsPlain l.inFlow here.rest then plainScalar l
    else refuse

/-- All tokens. The end of the text counts as the start of a line. -/
def tokens : Lex (List Token) :=
  loop (fun (l : Layout) => do
    let l ← toToken l
    let here ← get
    let l ← lift (l.dropStale here)
    if here.rest.isEmpty then do
      let l ← lift (l.dedent here.column).dedentAll.dropKey
      pure (.stop l.tokens.toList)
    else do
      let l ← token (l.dedent here.column)
      pure (.again l)) {}

end Lex

/-- The tokens of a text. -/
def Token.ofText? (s : String) : Option (List Token) :=
  let cs := s.toList
  if cs.all isPrintable then Lex.tokens.run' (.start cs) else none

end SchemaTypes.Yaml
