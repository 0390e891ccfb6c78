import SchemaTypes.Json.Value
import SchemaTypes.Yaml.Tree

/-!
# The values of YAML scalars

What a scalar can be read as: null, a truth value, an integer in one of four bases, a floating-point
number, or a text. Integers of more than 64 bits are told from numbers that are even greater: these
are floating-point numbers, the former have no value.
-/
namespace SchemaTypes.Yaml

open Decimal

def isNull (s : String) : Bool :=
  s == "null" || s == "Null" || s == "NULL" || s == "~"

def truth? (s : String) : Option Bool :=
  if s == "true" || s == "True" || s == "TRUE" then some true
  else if s == "false" || s == "False" || s == "FALSE" then some false
  else none

/-! ### Integers -/

/-- The value of digits of a base, at least one of them. -/
def natural? (base : Nat) (cs : List Char) : Option Nat :=
  if cs.isEmpty then none
  else cs.foldlM (fun acc c => do
    let digit ← Text.hexValue? c
    if digit < base then pure (acc * base + digit) else none) 0

/-- A natural number with the mark of its base, if it has one. -/
def markedNatural? : List Char → Option Nat
  | '0' :: 'x' :: digits => natural? 16 digits
  | '0' :: 'o' :: digits => natural? 8 digits
  | '0' :: 'b' :: digits => natural? 2 digits
  | digits => natural? 10 digits

def withoutSign : List Char → List Char
  | '+' :: cs => cs
  | '-' :: cs => cs
  | cs => cs

/-- Digits after a zero are no number, in front of a sign or not. -/
def isPadded (cs : List Char) : Bool :=
  match withoutSign cs with
  | '0' :: c :: rest => (c :: rest).all Char.isDigit
  | _ => false

/-- A natural number, with a plus sign or without one. -/
def unsigned? (cs : List Char) : Option Nat :=
  if isPadded cs then none
  else
    match cs with
    | '+' :: cs => markedNatural? cs
    | cs => markedNatural? cs

/-- The absolute value of a number with a minus sign. -/
def negative? (cs : List Char) : Option Nat :=
  if isPadded cs then none
  else
    match cs with
    | '-' :: cs => markedNatural? cs
    | _ => none

/-- An integer, of any size. -/
def integer? (cs : List Char) : Option Int :=
  match unsigned? cs with
  | some n => some n
  | none => (negative? cs).map fun n => -(n : Int)

/-- A natural number of 64 bits. -/
def word? (s : String) : Option Nat :=
  (unsigned? s.toList).filter (· < Nat.pow 2 64)

/-! ### Floating-point numbers -/

/-- The digits at the front, and what follows them. -/
def digits (cs : List Char) : List Nat × List Char :=
  (Text.digitValues cs, cs.dropWhile Char.isDigit)

/-- An exponent that takes up the rest of the text, or no exponent. -/
def exponent? : List Char → Option Int
  | [] => some 0
  | c :: rest =>
    if c = 'e' ∨ c = 'E' then
      let (negative, rest) := Text.signPart rest
      match digits rest with
      | ([], _) => none
      | (found, []) =>
        let size : Int := Text.decimalValue found
        some (if negative then -size else size)
      | (_, _ :: _) => none
    else none

/-- A number in decimal digits: with a point or without one, and with an exponent or without one. -/
def decimal? (negative : Bool) (cs : List Char) : Option Double :=
  let (whole, rest) := digits cs
  let (fraction, rest) := match rest with
    | '.' :: rest => digits rest
    | rest => ([], rest)
  if whole.isEmpty && fraction.isEmpty then none
  else do
    let exponent ← exponent? rest
    Double.ofDecimal? negative (Text.decimalValue (whole ++ fraction)) (exponent - fraction.length)

/-- The values of floating-point scalars. -/
inductive Floating where
  | number (value : Double)
  | infinite
  | notNumber
deriving Repr, DecidableEq, Inhabited

/-- A number after its sign; one that is too great has no value. -/
def magnitude? (negative : Bool) (cs : List Char) : Option Floating :=
  if [".inf", ".Inf", ".INF"].contains (String.ofList cs) then some .infinite
  else (decimal? negative cs).map .number

def floating? (s : String) : Option Floating :=
  if [".nan", ".NaN", ".NAN"].contains s then some .notNumber
  else
    match s.toList with
    | '+' :: cs => magnitude? false cs
    | '-' :: cs => magnitude? true cs
    | cs => magnitude? false cs

/-! ### Literals -/

/-- What is no finite number is null. -/
def Floating.toJson : Floating → Json
  | .number value => .number (.double value)
  | .infinite | .notNumber => .null

/-- An integer as a literal, which has 64 bits. -/
def integerLiteral? (n : Int) : Option Json :=
  if n.natAbs < Nat.pow 2 64 ∧ (0 ≤ n ∨ n.natAbs ≤ Nat.pow 2 63) then some (.number (.int n))
  else none

/-- Is the integer too great to be taken for one at all? -/
def isHuge (n : Int) : Bool :=
  if n < 0 then n.natAbs > Nat.pow 2 127 else n.natAbs ≥ Nat.pow 2 128

/-- The integer of the text that is not too great for one. -/
def tameInteger? (s : String) : Option Int :=
  (integer? s.toList).filter (!isHuge ·)

/-- The literal of a plain scalar without a tag. -/
def plainLiteral? (s : String) : Option Json :=
  if s.isEmpty || isNull s then some .null
  else
    match truth? s, tameInteger? s with
    | some b, _ => some (.bool b)
    | none, some n => integerLiteral? n
    | none, none =>
      if isPadded s.toList then some (.text s)
      else
        match floating? s with
        | some x => some x.toJson
        | none => some (.text s)

/-- The literal of a scalar without a tag. -/
def untaggedLiteral? (style : Style) (s : String) : Option Json :=
  if style = .plain then plainLiteral? s else some (.text s)

/-- The literal of a scalar with a tag: a core tag requires its form, a custom tag makes it no
literal, and a local one that is not custom counts for nothing. With any other tag it is a text. -/
def taggedLiteral? (tag : Tag) (style : Style) (s : String) : Option Json :=
  if tag = .core "bool" then (truth? s).map .bool
  else if tag = .core "int" then (tameInteger? s).bind integerLiteral?
  else if tag = .core "float" then (floating? s).map Floating.toJson
  else if tag = .core "null" then if isNull s then some .null else none
  else if tag.isCustom then none
  else if tag.isLocal then untaggedLiteral? style s
  else some (.text s)

end SchemaTypes.Yaml
