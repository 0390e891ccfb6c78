import SchemaTypes.Decimal.Double

/-!
# Shortest decimals

The shortest digits that read back as a given double, and among those the nearest.
-/
namespace SchemaTypes.Decimal

/-- The number `0.d₁d₂… * 10 ^ point`, where `digits` is the integer `d₁d₂…`. -/
structure Digits where
  digits : Nat
  point : Int
deriving Repr, DecidableEq, Inhabited

/-- Do the fractions compare as `a ≤ b`? -/
def ratioLe (a b : Nat × Nat) : Bool :=
  a.1 * b.2 ≤ b.1 * a.2

def ratioLt (a b : Nat × Nat) : Bool :=
  a.1 * b.2 < b.1 * a.2

/-- The numbers that round to `x` are those between the two ends. -/
def Double.roundingInterval (x : Double) : (Nat × Nat) × (Nat × Nat) :=
  let lower := if x.mantissa = Nat.pow 2 52 ∧ x.exponent > -1074 then 4 * x.mantissa - 1
    else 4 * x.mantissa - 2
  (unscale lower 1 (2 - x.exponent), unscale (4 * x.mantissa + 2) 1 (2 - x.exponent))

/-- Does a decimal read back as `x`? The ends round to the even mantissa. -/
def Double.readsBack (x : Double) (candidate : Nat × Nat) : Bool :=
  let (low, high) := x.roundingInterval
  if x.mantissa % 2 = 0 then ratioLe low candidate && ratioLe candidate high
  else ratioLt low candidate && ratioLt candidate high

/-- `n * 10 ^ power` as a fraction. -/
def decimalRatio (n : Nat) (power : Int) : Nat × Nat :=
  if power < 0 then (n, Nat.pow 10 power.natAbs) else (n * Nat.pow 10 power.natAbs, 1)

/-- The power of ten of the first digit, searched upwards from below. -/
def leadingPower (value : Nat × Nat) (power : Int) : (tries : Nat) → Int
  | 0 => power
  | tries + 1 =>
    if ratioLe (decimalRatio 1 (power + 1)) value then leadingPower value (power + 1) tries
    else power

/-- The power of ten of the first digit of a positive fraction. -/
def firstPower (value : Nat × Nat) : Int :=
  leadingPower value ((toString value.1).length - (toString value.2).length - 1 : Int) 2

/-- The nearest decimal with `count` digits that reads back as `x`, if there is one. -/
def Double.nearestWith (x : Double) (count : Nat) : Option Digits :=
  let value := x.toRatio
  let power := firstPower value
  let unit : Int := power - (count : Int) + 1
  let (un, ud) := decimalRatio 1 unit
  let low := value.1 * ud / (value.2 * un)
  let near := roundDiv (value.1 * ud) (value.2 * un)
  let other := if near = low then low + 1 else low
  let point := power + 1
  if x.readsBack (decimalRatio near unit) then some ⟨near, point + (toString near).length - count⟩
  else if x.readsBack (decimalRatio other unit) then
    some ⟨other, point + (toString other).length - count⟩
  else none

/-- Fewer digits first; seventeen are always enough. -/
def Double.shortestFrom (x : Double) (count : Nat) : (tries : Nat) → Digits
  | 0 => (x.nearestWith count).getD ⟨0, 0⟩
  | tries + 1 =>
    match x.nearestWith count with
    | some found => found
    | none => x.shortestFrom (count + 1) tries

/-- The shortest digits that read back as a number other than zero. -/
def Double.shortest (x : Double) : Digits :=
  x.shortestFrom 1 16

end SchemaTypes.Decimal
