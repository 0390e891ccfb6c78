import SchemaTypes.Yaml.Cursor

/-!
# Block scalars

Indented lines that are a text as they stand, or that are folded to longer lines. The header may
give the indentation, and says what becomes of the line breaks at the end.
-/
namespace SchemaTypes.Yaml

/-- What becomes of the line breaks at the end: none is kept, one, or all. -/
inductive Chomping where
  | strip
  | clip
  | keep
deriving Repr, DecidableEq, Inhabited

/-- The header of a block scalar: the indentation is given relative to what is around it. -/
structure BlockHeader where
  chomping : Chomping
  indentation : Option Nat
deriving Repr, DecidableEq, Inhabited

/-- The text of a block scalar up to a line. The last line break is held back, and so are the empty
lines after it; `indented` says that the last line began with a blank. -/
structure BlockText where
  text : List Char
  lastBreak : List Char
  emptyLines : List Char
  indented : Bool
deriving Repr, DecidableEq, Inhabited

namespace BlockText

/-- Before the first line with a text. -/
def start (emptyLines : List Char) : BlockText :=
  ⟨[], [], emptyLines, false⟩

/-- What stands between the last line and the next one. In a folded text a single line break between
two lines that do not begin with a blank is a space. -/
def between (t : BlockText) (folded indented : Bool) : List Char :=
  if folded && t.lastBreak == ['\n'] && !t.indented && !indented then
    if t.emptyLines.isEmpty then [' '] else t.emptyLines
  else t.lastBreak ++ t.emptyLines

/-- The whole text. -/
def chomp (t : BlockText) : Chomping → List Char
  | .strip => t.text
  | .clip => t.text ++ t.lastBreak
  | .keep => t.text ++ t.lastBreak ++ t.emptyLines

end BlockText

namespace Lex

def chomping? (c : Char) : Option Chomping :=
  if c == '+' then some .keep else if c == '-' then some .strip else none

/-- The sign of the header that comes next, if any. -/
def chompingSign : Lex (Option Chomping) := do
  match (← rest).head?.bind chomping? with
  | some chomping => do
    skip 1
    pure (some chomping)
  | none => pure none

/-- The digit of the header that comes next, if any. -/
def indentationDigit : Lex (Option Nat) := do
  match ← rest with
  | c :: _ =>
    if c.isDigit then do
      require (c != '0')
      skip 1
      pure (some (c.toNat - 48))
    else pure none
  | [] => pure none

/-- The sign and the digit come in either order. -/
def blockHeader : Lex BlockHeader := do
  let header ← match ← chompingSign with
    | some chomping => do pure ⟨chomping, ← indentationDigit⟩
    | none => do
      match ← indentationDigit with
      | some digit => do pure ⟨(← chompingSign).getD .clip, some digit⟩
      | none => pure ⟨.clip, none⟩
  endOfLine
  pure header

/-- The line breaks of empty lines, and the greatest column that spaces lead to. Up to `indent`, or
up to the first text where it is not known yet, there may be spaces but no tabs. -/
def emptyLines (indent : Option Nat) : Lex (List Char × Nat) :=
  loop (fun (breaks, widest) => do
    let spaces := ((← rest).takeWhile (· == ' ')).length
    let column := (← get).column
    skip (match indent with
      | some n => min spaces (n - column)
      | none => spaces)
    let column := (← get).column
    require (!(indent.all (column < ·) && (← next (· == '\t'))))
    let widest := max widest column
    match ← lineBreak with
    | [] => pure (.stop (breaks, widest))
    | found => pure (.again (breaks ++ found, widest))) (([] : List Char), 0)

/-- The lines of a block scalar with the indentation. -/
def blockLines (folded : Bool) (indent : Nat) (t : BlockText) : Lex BlockText :=
  loop (fun (t : BlockText) => do
    if (← get).column != indent || (← rest).isEmpty then pure (.stop t)
    else do
      let indented ← next isGap
      let line ← takeWhile (!isBreak ·)
      let lastBreak ← lineBreak
      let (breaks, _) ← emptyLines (some indent)
      pure (.again ⟨t.text ++ t.between folded indented ++ line, lastBreak, breaks, indented⟩)) t

/-- A block scalar after its indicator. `outer` is the column of the collection around it. -/
def block (folded : Bool) (outer : Option Nat) : Lex String := do
  let header ← blockHeader
  let least := match outer with
    | some column => column + 1
    | none => 0
  let given := header.indentation.map (outer.getD 0 + ·)
  let (breaks, widest) ← emptyLines given
  let indent := given.getD (max (max widest least) 1)
  let t ← blockLines folded indent (.start breaks)
  pure (String.ofList (t.chomp header.chomping))

end Lex
end SchemaTypes.Yaml
