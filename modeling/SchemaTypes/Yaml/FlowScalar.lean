import SchemaTypes.Text.Digits
import SchemaTypes.Yaml.Cursor

/-!
# Plain and quoted scalars

Words with gaps between them. On one line a gap is kept; a gap with a single line break is read as
a space, and one with more as the other line breaks.
-/
namespace SchemaTypes.Yaml

/-- What stands between two words of a scalar: blanks, or line breaks with blanks around them. -/
inductive Gap where
  | blanks (cs : List Char)
  | breaks (first others : List Char)
deriving Repr, DecidableEq, Inhabited

namespace Gap

def none : Gap := .blanks []

def hasBreak : Gap → Bool
  | .blanks _ => false
  | .breaks .. => true

/-- The gap as it is read. A separator of lines or paragraphs is always kept. -/
def folded : Gap → List Char
  | .blanks cs => cs
  | .breaks ['\n'] [] => [' ']
  | .breaks ['\n'] others => others
  | .breaks first others => first ++ others

end Gap

namespace Lex

/-- The rest of a gap. After a line break, a tab may not stand to the left of `margin`. -/
def gap (margin : Nat) (before : Gap) : Lex Gap :=
  loop (fun before => do
    match ← rest with
    | c :: _ =>
      if isGap c then
        match before with
        | .blanks cs => do
          skip 1
          pure (.again (.blanks (cs ++ [c])))
        | .breaks .. => do
          require (!(c == '\t' && (← get).column < margin))
          skip 1
          pure (.again before)
      else if isBreak c then do
        let found ← lineBreak
        pure (.again (match before with
          | .blanks _ => .breaks found []
          | .breaks first others => .breaks first (others ++ found)))
      else pure (.stop before)
    | [] => pure (.stop before)) before

/-! ### Plain scalars -/

def isFlowIndicator (c : Char) : Bool :=
  c == ',' || c == '[' || c == ']' || c == '{' || c == '}'

/-- One word of a plain scalar. Inside brackets, a bracket or a comma ends it, and a colon may not
stand before one of these or a question mark. -/
def plainWord (inFlow : Bool) : Lex (List Char) :=
  loop (fun (word : List Char) => do
    match ← rest with
    | [] => pure (.stop word.reverse)
    | c :: cs =>
      if isSpace c then pure (.stop word.reverse)
      else if c == ':' && inFlow && (cs.head?.any fun d => d == '?' || isFlowIndicator d) then
        refuse
      else if (c == ':' && endsWord cs) || (inFlow && isFlowIndicator c) then
        pure (.stop word.reverse)
      else do
        skip 1
        pure (.again (c :: word))) []

/-- A plain scalar, and whether line breaks follow it. Outside brackets it ends before a line that
starts to the left of `margin`. -/
def plain (inFlow : Bool) (margin : Nat) : Lex (String × Bool) :=
  loop (fun (read, before) => do
    let stop : Round (List Char × Gap) (String × Bool) :=
      .stop (String.ofList read, before.hasBreak)
    if (← get).atDocumentMarker || (← next (· == '#')) then pure stop
    else
      let word ← plainWord inFlow
      let (read, before) :=
        if word = [] then (read, before) else (read ++ before.folded ++ word, .none)
      if ← next isSpace then do
        let before ← gap margin before
        if !inFlow && (← get).column < margin then
          pure (.stop (String.ofList read, before.hasBreak))
        else pure (.again (read, before))
      else pure (.stop (String.ofList read, before.hasBreak))) (([] : List Char), Gap.none)

/-! ### Quoted scalars -/

/-- The number in so many hexadecimal digits. -/
def hexNumber : (count : Nat) → (acc : Nat) → Lex Nat
  | 0, acc => pure acc
  | count + 1, acc => do
    match ← rest with
    | c :: _ =>
      match Text.hexValue? c with
      | some digit => do
        skip 1
        hexNumber count (acc * 16 + digit)
      | none => refuse
    | [] => refuse

/-- The character with the number in so many hexadecimal digits. -/
def numberedChar (digits : Nat) : Lex Char := do
  let n ← hexNumber digits 0
  if n.isValidChar then pure (Char.ofNat n) else refuse

/-- The character of an escape without a number. -/
def escaped? (c : Char) : Option Char :=
  if c == '0' then some (Char.ofNat 0)
  else if c == 'a' then some '\x07'
  else if c == 'b' then some '\x08'
  else if c == 't' || c == '\t' then some '\t'
  else if c == 'n' then some '\n'
  else if c == 'v' then some '\x0B'
  else if c == 'f' then some '\x0C'
  else if c == 'r' then some '\r'
  else if c == 'e' then some '\x1B'
  else if c == ' ' || c == '"' || c == '/' || c == '\\' then some c
  else if c == 'N' then some '\x85'
  else if c == '_' then some '\xA0'
  else if c == 'L' then some '\u2028'
  else if c == 'P' then some '\u2029'
  else none

/-- The character of an escape, after its backslash. -/
def escape : Lex Char := do
  match ← rest with
  | [] => refuse
  | c :: _ =>
    skip 1
    if c == 'x' then numberedChar 2
    else if c == 'u' then numberedChar 4
    else if c == 'U' then numberedChar 8
    else
      match escaped? c with
      | some c => pure c
      | none => refuse

/-- One word of a quoted scalar, and the start of a gap where an escaped line break ends it. In
single quotes, two quotes stand for one and nothing else is escaped. -/
def quotedWord (quote : Char) : Lex (List Char × Gap) :=
  loop (fun (word : List Char) => do
    match ← rest with
    | [] => pure (.stop (word.reverse, .none))
    | c :: cs =>
      if isSpace c then pure (.stop (word.reverse, .none))
      else if c == quote then
        if c == '\'' && cs.head? == some '\'' then do
          skip 2
          pure (.again (c :: word))
        else pure (.stop (word.reverse, .none))
      else if c == '\\' && quote == '"' then do
        skip 1
        if cs.head?.any isBreak then do
          let _ ← lineBreak
          pure (.stop (word.reverse, .breaks [] []))
        else do
          let c ← escape
          pure (.again (c :: word))
      else do
        skip 1
        pure (.again (c :: word))) []

/-- A quoted scalar after its opening quote. -/
def quoted (quote : Char) : Lex String :=
  loop (fun (read : List Char) => do
    require (!(← get).atDocumentMarker)
    let (word, before) ← quotedWord quote
    let read := read ++ word
    match ← rest with
    | [] => refuse
    | c :: _ =>
      if c == quote then do
        skip 1
        pure (.stop (String.ofList read))
      else do
        let between ← gap 0 before
        pure (.again (read ++ between.folded))) []

end Lex
end SchemaTypes.Yaml
