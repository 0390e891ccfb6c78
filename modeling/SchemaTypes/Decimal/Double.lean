/-!
# Double precision

Finite binary numbers with 53 significant bits. All arithmetic is exact arithmetic on natural
numbers followed by one rounding, to the nearest number and to the even one at a tie.
-/
namespace SchemaTypes.Decimal

/-- The number `mantissa * 2 ^ exponent`, with a sign that zero has too. -/
structure Double where
  negative : Bool
  mantissa : Nat
  exponent : Int
deriving Repr, DecidableEq, Inhabited

/-- The quotient rounded to the nearest integer, at a tie to the even one. -/
def roundDiv (num den : Nat) : Nat :=
  let low := num / den
  let double := 2 * (num % den)
  if double > den || (double == den && low % 2 == 1) then low + 1 else low

/-- `num / den * 2 ^ (-exponent)` as a fraction. -/
def unscale (num den : Nat) (exponent : Int) : Nat × Nat :=
  if exponent < 0 then (num * Nat.pow 2 exponent.natAbs, den)
  else (num, den * Nat.pow 2 exponent.natAbs)

namespace Double

def zero (negative : Bool) : Double := ⟨negative, 0, -1074⟩

def isZero (x : Double) : Bool :=
  x.mantissa == 0

def negate (x : Double) : Double :=
  { x with negative := !x.negative }

/-- The exponent at which the fraction has 53 bits before the point, or the least one. -/
def ratioExponent (num den : Nat) : Int :=
  let guess : Int := (num.log2 : Int) - den.log2 - 52
  let (n, d) := unscale num den guess
  max (if n / d < Nat.pow 2 52 then guess - 1 else guess) (-1074)

/-- The fraction rounded, or nothing where it is beyond the greatest number. -/
def ofRatio? (negative : Bool) (num den : Nat) : Option Double :=
  if num = 0 then some (zero negative)
  else
    let exponent := ratioExponent num den
    let (n, d) := unscale num den exponent
    let mantissa := roundDiv n d
    let (mantissa, exponent) :=
      if mantissa = Nat.pow 2 53 then (Nat.pow 2 52, exponent + 1) else (mantissa, exponent)
    if exponent > 971 then none else some ⟨negative, mantissa, exponent⟩

/-- The absolute value as a fraction. -/
def toRatio (x : Double) : Nat × Nat :=
  unscale x.mantissa 1 (-x.exponent)

/-- The rounded product, or nothing where it is beyond the greatest number. -/
def mul? (x y : Double) : Option Double :=
  let (xn, xd) := x.toRatio
  let (yn, yd) := y.toRatio
  ofRatio? (x.negative != y.negative) (xn * yn) (xd * yd)

/-- The rounded quotient, or nothing where it is beyond the greatest number or undefined. -/
def div? (x y : Double) : Option Double :=
  let (xn, xd) := x.toRatio
  let (yn, yd) := y.toRatio
  if yn = 0 then none else ofRatio? (x.negative != y.negative) (xn * yd) (xd * yn)

/-- The nearest number to `digits * 10 ^ power`. Powers so far from zero that the answer is settled
are not computed. -/
def ofDecimal? (negative : Bool) (digits : Nat) (power : Int) : Option Double :=
  if digits = 0 then some (zero negative)
  else
    let size : Int := (toString digits).length + power
    if size > 310 then none
    else if size < -330 then some (zero negative)
    else if power < 0 then ofRatio? negative digits (Nat.pow 10 power.natAbs)
    else ofRatio? negative (digits * Nat.pow 10 power.natAbs) 1

end Double
end SchemaTypes.Decimal
