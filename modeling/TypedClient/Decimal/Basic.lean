/-!
# Decimals

A decimal number is a sign, digits and a power of ten. Zero has a sign too.
-/

namespace TypedClient

/-- `digits · 10 ^ exponent`, with its sign. -/
structure Decimal where
  negative : Bool
  digits : Nat
  exponent : Int
  deriving DecidableEq, Repr

namespace Decimal

/-- Puts the sign of a decimal before a text. -/
def signed (decimal : Decimal) (text : List Char) : List Char :=
  if decimal.negative then '-' :: text else text

end Decimal

end TypedClient
