import SchemaTypes.Json.Tree
import SchemaTypes.Text.Digits

/-!
# Reading JSON

The grammar of JSON, strictly. Values nest up to 127 levels; deeper ones are still checked for their
form.
-/
namespace SchemaTypes.Json

/-- The characters that may stand between tokens. -/
def isSpace (c : Char) : Bool :=
  c == ' ' || c == '\t' || c == '\n' || c == '\r'

def skipSpace (cs : List Char) : List Char :=
  cs.dropWhile isSpace

def hexValue4? (a b c d : Char) : Option Nat := do
  pure ((((← Text.hexValue? a) * 16 + (← Text.hexValue? b)) * 16 + (← Text.hexValue? c)) * 16 +
    (← Text.hexValue? d))

/-- A character of a string as it is written: itself, or the number of an UTF-16 unit. -/
inductive StringUnit where
  | char (c : Char)
  | code (n : Nat)
deriving Repr, DecidableEq, Inhabited

/-- The character of a one-letter escape. -/
def shortEscape? (c : Char) : Option Char :=
  if c = '"' ∨ c = '\\' ∨ c = '/' then some c
  else if c = 'b' then some (Char.ofNat 0x08)
  else if c = 'f' then some (Char.ofNat 0x0C)
  else if c = 'n' then some '\n'
  else if c = 'r' then some '\r'
  else if c = 't' then some '\t'
  else none

/-- The units of a string up to its closing quote, and what follows. -/
def stringUnits : List Char → Option (List StringUnit × List Char)
  | [] => none
  | '"' :: rest => some ([], rest)
  | '\\' :: 'u' :: a :: b :: c :: d :: rest => do
    let code ← hexValue4? a b c d
    let (units, rest) ← stringUnits rest
    pure (.code code :: units, rest)
  | '\\' :: e :: rest => do
    let c ← shortEscape? e
    let (units, rest) ← stringUnits rest
    pure (.char c :: units, rest)
  | c :: rest =>
    if c = '\\' ∨ c.toNat < 0x20 then none
    else do
      let (units, rest) ← stringUnits rest
      pure (.char c :: units, rest)

def isLeading (n : Nat) : Bool := 0xD800 ≤ n && n ≤ 0xDBFF

def isTrailing (n : Nat) : Bool := 0xDC00 ≤ n && n ≤ 0xDFFF

/-- The characters of the units; a surrogate counts only as one of a pair. -/
def joinUnits : List StringUnit → Option (List Char)
  | [] => some []
  | .code n :: .code m :: rest =>
    if isLeading n then
      if isTrailing m then do
        pure (Char.ofNat (0x10000 + (n - 0xD800) * 0x400 + (m - 0xDC00)) :: (← joinUnits rest))
      else none
    else if isTrailing n then none
    else do pure (Char.ofNat n :: (← joinUnits (.code m :: rest)))
  | .code n :: rest =>
    if isLeading n || isTrailing n then none else do pure (Char.ofNat n :: (← joinUnits rest))
  | .char c :: rest => do pure (c :: (← joinUnits rest))

/-- The string after an opening quote; nothing is made of one with a lone surrogate. -/
def stringRest (cs : List Char) : Option (Option String × List Char) := do
  let (units, rest) ← stringUnits cs
  pure ((joinUnits units).map String.ofList, rest)

/-- The digits at the front, at least one of them. -/
def someDigits (cs : List Char) : Option (List Nat × List Char) :=
  match Text.digitValues cs with
  | [] => none
  | digits => some (digits, cs.dropWhile Char.isDigit)

/-- The digits before the point: a zero stands alone. -/
def wholeDigits (cs : List Char) : Option (List Nat × List Char) := do
  let (digits, rest) ← someDigits cs
  match digits with
  | 0 :: _ :: _ => none
  | _ => pure (digits, rest)

def fractionPart : List Char → Option (Bool × List Nat × List Char)
  | '.' :: rest => do
    let (digits, rest) ← someDigits rest
    pure (true, digits, rest)
  | cs => some (false, [], cs)

def exponentPart : List Char → Option (Option (Bool × List Nat) × List Char)
  | [] => some (none, [])
  | c :: rest =>
    if c = 'e' ∨ c = 'E' then do
      let (negative, rest) := Text.signPart rest
      let (digits, rest) ← someDigits rest
      pure (some (negative, digits), rest)
    else some (none, c :: rest)

/-- The number at the front of the text. -/
def numberText (cs : List Char) : Option (NumberText × List Char) := do
  let (negative, cs) := match cs with
    | '-' :: rest => (true, rest)
    | cs => (false, cs)
  let (whole, cs) ← wholeDigits cs
  let (hasFraction, fraction, cs) ← fractionPart cs
  let (exponent, cs) ← exponentPart cs
  pure (⟨negative, whole, fraction, hasFraction, exponent⟩, cs)

/-- What follows the word, if the text starts with it. -/
def afterWord : List Char → List Char → Option (List Char)
  | [], cs => some cs
  | w :: ws, c :: cs => if w = c then afterWord ws cs else none
  | _ :: _, [] => none

/-- A container has no content where it is nested too deep. -/
def within (levels : Nat) (tree : Tree) : Tree :=
  if levels = 0 then .unreadable else tree

/-- An object loses its content with one of its keys. -/
def objectOf (entries : List (Option String × Tree)) : Tree :=
  match entries.mapM fun e => e.1.map (·, e.2) with
  | some entries => .object entries
  | none => .unreadable

mutual

/-- The value at the front of the text, and what follows it. `levels` containers may still open. -/
def valueAt (levels : Nat) : (fuel : Nat) → List Char → Option (Tree × List Char)
  | 0, _ => none
  | fuel + 1, cs =>
    match skipSpace cs with
    | [] => none
    | '"' :: rest => do
      let (s, rest) ← stringRest rest
      pure (match s with | some s => .text s | none => .unreadable, rest)
    | '[' :: rest =>
      match skipSpace rest with
      | ']' :: rest => some (within levels (.array []), rest)
      | _ => do
        let (items, rest) ← itemsAt (levels - 1) fuel rest
        pure (within levels (.array items), rest)
    | '{' :: rest =>
      match skipSpace rest with
      | '}' :: rest => some (within levels (.object []), rest)
      | _ => do
        let (entries, rest) ← entriesAt (levels - 1) fuel rest
        pure (within levels (objectOf entries), rest)
    | 't' :: rest => do pure (.bool true, ← afterWord "rue".toList rest)
    | 'f' :: rest => do pure (.bool false, ← afterWord "alse".toList rest)
    | 'n' :: rest => do pure (.null, ← afterWord "ull".toList rest)
    | cs => do
      let (written, rest) ← numberText cs
      pure (match written.value? with | some n => .number n | none => .unreadable, rest)

/-- The items of an array up to its closing bracket. -/
def itemsAt (levels : Nat) : (fuel : Nat) → List Char → Option (List Tree × List Char)
  | 0, _ => none
  | fuel + 1, cs => do
    let (tree, rest) ← valueAt levels fuel cs
    match skipSpace rest with
    | ',' :: rest => do
      let (trees, rest) ← itemsAt levels fuel rest
      pure (tree :: trees, rest)
    | ']' :: rest => pure ([tree], rest)
    | _ => none

/-- The entries of an object up to its closing brace. -/
def entriesAt (levels : Nat) :
    (fuel : Nat) → List Char → Option (List (Option String × Tree) × List Char)
  | 0, _ => none
  | fuel + 1, cs =>
    match skipSpace cs with
    | '"' :: rest => do
      let (key, rest) ← stringRest rest
      match skipSpace rest with
      | ':' :: rest => do
        let (tree, rest) ← valueAt levels fuel rest
        match skipSpace rest with
        | ',' :: rest => do
          let (entries, rest) ← entriesAt levels fuel rest
          pure ((key, tree) :: entries, rest)
        | '}' :: rest => pure ([(key, tree)], rest)
        | _ => none
      | _ => none
    | _ => none

end

/-- The greatest number of containers one inside the other. -/
def nestingLimit : Nat := 127

def readChars (cs : List Char) : Option Tree := do
  let (tree, rest) ← valueAt nestingLimit (2 * cs.length + 2) cs
  if (skipSpace rest).isEmpty then pure tree else none

/-- The tree of a JSON text, or nothing where the text is not well formed. -/
def read (s : String) : Option Tree :=
  readChars s.toList

end SchemaTypes.Json
