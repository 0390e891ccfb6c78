import SchemaTypes.Decimal.Shortest
import SchemaTypes.Text.Digits

/-!
# JSON numbers

Integers of 64 bits are kept as integers, all other numbers as doubles.
-/
namespace SchemaTypes.Json

open Decimal

/-- A number: an integer of 64 bits, with a sign or without, or a double. -/
inductive Number where
  | int (value : Int)
  | double (value : Double)
deriving Repr, DecidableEq, Inhabited

/-- The parts of a number as it is written. -/
structure NumberText where
  negative : Bool
  whole : List Nat
  fraction : List Nat
  hasFraction : Bool
  exponent : Option (Bool × List Nat)

/-- Where the digits of a number stop counting: the greatest integer of 64 bits. -/
def wordLimit : Nat := Nat.pow 2 64 - 1

/-- Takes digits as long as the number they make fits a word; gives the rest back. -/
def takeWord (acc : Nat) : List Nat → Nat × List Nat
  | [] => (acc, [])
  | d :: ds => if acc * 10 + d > wordLimit then (acc, d :: ds) else takeWord (acc * 10 + d) ds

/-- The greatest exponent that is told from a greater one. -/
def exponentLimit : Nat := Nat.pow 2 31 - 1

/-- Divides by ten to the 308th as long as the exponent is below the table of powers. -/
def scaleDown (x : Double) (exponent : Int) : (steps : Nat) → Option Double
  | 0 => some x
  | steps + 1 =>
    if exponent ≥ -308 then do x.div? (← Double.ofDecimal? false 1 (-exponent))
    else if x.isZero then some x
    else do scaleDown (← x.div? (← Double.ofDecimal? false 1 308)) (exponent + 308) steps

/-- The word times a power of ten, with one rounding for the word, one for the power and one for
their product. -/
def scaled (negative : Bool) (word : Nat) (exponent : Int) : Option Double := do
  let x ← Double.ofRatio? false word 1
  let y ←
    if exponent < 0 then scaleDown x exponent 4
    else if exponent ≤ 308 then do x.mul? (← Double.ofDecimal? false 1 exponent)
    else if x.isZero then some x
    else none
  pure (if negative then y.negate else y)

/-- The exponent that is written, as far as it is told from others. -/
inductive Exponent where
  | power (value : Int)
  | huge
  | tiny

def NumberText.exponentValue (text : NumberText) : Exponent :=
  match text.exponent with
  | none => .power 0
  | some (negative, digits) =>
    let size := Text.decimalValue digits
    if size > exponentLimit then (if negative then .tiny else .huge)
    else .power (if negative then -size else size)

/-- The value of a number that is written with a fraction, an exponent or too many digits. A digit
that no longer fits the word only moves the point. -/
def NumberText.toDouble (text : NumberText) : Option Double :=
  let (word, beyond) := takeWord 0 text.whole
  let (word, later) := takeWord word text.fraction
  let shift : Int := beyond.length - (text.fraction.length - later.length : Nat)
  match text.exponentValue with
  | .power exponent => scaled text.negative word (shift + exponent)
  | .huge => if word = 0 then some (Double.zero text.negative) else none
  | .tiny => some (Double.zero text.negative)

/-- The value of a written number, or nothing where it is too great for a double. -/
def NumberText.value? (text : NumberText) : Option Number :=
  let size := Text.decimalValue text.whole
  if text.hasFraction || text.exponent.isSome || size > wordLimit then
    text.toDouble.map .double
  else if !text.negative then some (.int size)
  else if size = 0 then some (.double (Double.zero true))
  else if size ≤ Nat.pow 2 63 then some (.int (-size))
  else (Double.ofRatio? true size 1).map .double

/-- `count` zeros. -/
def zeros (count : Nat) : String :=
  String.ofList (List.replicate count '0')

/-- Doubles are written without an exponent from `1e-5` on and below `1e16`, always with a fraction;
otherwise with one digit before the point and a signed exponent. -/
def doubleText (x : Double) : String :=
  let sign := if x.negative then "-" else ""
  if x.isZero then sign ++ "0.0"
  else
    let found := x.shortest
    let digits :=
      String.ofList ((toString found.digits).toList.reverse.dropWhile (· == '0')).reverse
    let length : Int := digits.length
    let power := found.point - 1
    if -5 ≤ power ∧ power < 16 then
      if power < 0 then sign ++ "0." ++ zeros (-power - 1).toNat ++ digits
      else if length ≤ power + 1 then sign ++ digits ++ zeros (power + 1 - length).toNat ++ ".0"
      else sign ++ String.ofList (digits.toList.take (power + 1).toNat) ++ "." ++
        String.ofList (digits.toList.drop (power + 1).toNat)
    else
      let mantissa := match digits.toList with
        | [d] => String.ofList [d]
        | d :: ds => String.ofList (d :: '.' :: ds)
        | [] => ""
      sign ++ mantissa ++ "e" ++ (if power < 0 then "-" else "+") ++ toString power.natAbs

def Number.text : Number → String
  | .int value => toString value
  | .double value => doubleText value

end SchemaTypes.Json
