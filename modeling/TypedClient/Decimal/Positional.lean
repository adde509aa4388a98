import TypedClient.Decimal.Basic

/-!
# Positional decimals

A decimal is written without an exponent: its digits, as many zeros as their
place asks for, and a point with at least one digit on either side.
-/

namespace TypedClient.Decimal

def zeros (count : Nat) : List Char :=
  List.replicate count '0'

/-- Digits with a point after the first `count` of them. -/
def withPoint (digits : List Char) (count : Nat) : List Char :=
  match digits.drop count with
  | [] => digits ++ zeros (count - digits.length) ++ ['.', '0']
  | fraction => digits.take count ++ '.' :: fraction

/-- The text of a decimal without its sign. -/
def positionalChars (digits : Nat) (power : Int) : List Char :=
  let text := (toString digits).toList
  let places := power + text.length
  if 0 < places then withPoint text places.toNat
  else '0' :: '.' :: zeros (-places).toNat ++ text

def positional (decimal : Decimal) : String :=
  String.ofList (decimal.signed (positionalChars decimal.digits decimal.exponent))

end TypedClient.Decimal
