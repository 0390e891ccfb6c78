import SchemaTypes.Yaml.Cursor
import SchemaTypes.Yaml.Token

/-!
# The layout of a YAML text

Outside brackets the indentation shows where a collection begins and ends, and a colon shows that
what stands before it on its line is a key.
-/
namespace SchemaTypes.Yaml

/-- Where a key may have begun: at which token, and at which place of the text. A required one is no
scalar but the next key of an indented table. -/
structure KeyStart where
  position : Nat
  place : Cursor
  required : Bool
deriving Inhabited

/-- The farthest that a colon may stand from the start of its key, in bytes. -/
def keyLimit : Nat := 1024

/-- Can a colon at the place no longer make this a key? -/
def KeyStart.isStale (k : KeyStart) (place : Cursor) : Bool :=
  k.place.line < place.line || k.place.offset + keyLimit < place.offset

/-- What is known at a place: the tokens so far, the columns of the indented collections around it
(the innermost first), whether a key may begin here, where one may have begun in the innermost
brackets, and the same for the brackets around them. -/
structure Layout where
  tokens : Array Token := #[]
  columns : List Nat := []
  keyAllowed : Bool := true
  key : Option KeyStart := none
  outer : List (Option KeyStart) := []
deriving Inhabited

namespace Layout

def inFlow (l : Layout) : Bool :=
  !l.outer.isEmpty

/-- The least column of what is inside the innermost indented collection. -/
def margin (l : Layout) : Nat :=
  match l.columns with
  | [] => 0
  | column :: _ => column + 1

def emit (l : Layout) (t : Token) : Layout :=
  { l with tokens := l.tokens.push t }

def insertToken (l : Layout) (position : Nat) (t : Token) : Layout :=
  { l with tokens := l.tokens.insertIdxIfInBounds position t }

/-- Ends the indented collections to the right of a column. -/
def dedent (l : Layout) (column : Nat) : Layout :=
  if l.inFlow then l
  else
    let (ended, columns) := l.columns.span (column < ·)
    { l with tokens := l.tokens ++ (ended.map fun _ => .blockEnd).toArray, columns }

/-- Ends all indented collections. -/
def dedentAll (l : Layout) : Layout :=
  if l.inFlow then l
  else { l with tokens := l.tokens ++ (l.columns.map fun _ => .blockEnd).toArray, columns := [] }

/-- Begins an indented collection at the column, unless one is there already. -/
def indent (l : Layout) (column position : Nat) (t : Token) : Layout :=
  if l.inFlow || column < l.margin then l
  else { l.insertToken position t with columns := column :: l.columns }

/-- Gives up a key that has gone stale, which a required one may not. -/
def dropStaleKey (place : Cursor) : Option KeyStart → Option (Option KeyStart)
  | none => some none
  | some k =>
    if k.isStale place then if k.required then none else some none
    else some (some k)

def dropStale (l : Layout) (place : Cursor) : Option Layout := do
  pure { l with key := ← dropStaleKey place l.key, outer := ← l.outer.mapM (dropStaleKey place) }

/-- Gives up the key that may have begun, which a required one may not. -/
def dropKey (l : Layout) : Option Layout :=
  match l.key with
  | some k => if k.required then none else some { l with key := none }
  | none => some l

/-- A key may begin here. -/
def startKey (l : Layout) (place : Cursor) : Option Layout :=
  if l.keyAllowed then do
    let l ← l.dropKey
    let required := !l.inFlow && l.columns.head? == some place.column
    pure { l with key := some ⟨l.tokens.size, place, required⟩ }
  else some l

end Layout

end SchemaTypes.Yaml
