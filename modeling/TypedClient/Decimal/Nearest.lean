import TypedClient.Decimal.Basic

/-!
# Reading decimals

The floating-point number of a decimal is the one nearest to it, and the one
with an even mantissa if two are equally near. Decimals beyond the largest
number become infinite, and those below half of the smallest become zero.
-/

namespace TypedClient.Decimal

/-- A quotient rounded to a natural number, and to an even one halfway between two. -/
def roundedQuotient (numerator denominator : Nat) : Nat :=
  let whole := numerator / denominator
  let rest := 2 * (numerator % denominator)
  if rest < denominator ∨ (rest = denominator ∧ whole % 2 = 0) then whole else whole + 1

/-- A quotient counted in units of `2 ^ exponent`. -/
def mantissa (numerator denominator : Nat) (exponent : Int) : Nat :=
  roundedQuotient (numerator * Nat.pow 2 (-exponent).toNat)
    (denominator * Nat.pow 2 exponent.toNat)

/-- The exponent that leaves 53 or 54 bits of a quotient, unless it is too small for that. -/
def lowExponent (numerator denominator : Nat) : Int :=
  max ((numerator.log2 : Int) - denominator.log2 - 53) (-1074)

/-- The floating-point number nearest to a positive quotient. -/
def nearest (numerator denominator : Nat) : Float :=
  let low := lowExponent numerator denominator
  let exponent :=
    if denominator * 0x20000000000000 * Nat.pow 2 low.toNat ≤ numerator * Nat.pow 2 (-low).toNat
    then low + 1
    else low
  (Float.ofNat (mantissa numerator denominator exponent)).scaleB exponent

def infinity : Float := 1 / 0

/-- The floating-point number of the digits at their place. -/
def magnitude (digits : Nat) (exponent : Int) : Float :=
  let places := exponent + (toString digits).length
  if digits = 0 ∨ places < -330 then 0
  else if 310 < places then infinity
  else nearest (digits * Nat.pow 10 exponent.toNat) (Nat.pow 10 (-exponent).toNat)

def toFloat (decimal : Decimal) : Float :=
  let size := magnitude decimal.digits decimal.exponent
  if decimal.negative then -size else size

end TypedClient.Decimal
