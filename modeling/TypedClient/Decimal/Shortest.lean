import TypedClient.Decimal.Basic

/-!
# Shortest decimals

The shortest decimal of a finite floating-point number is the one with the
fewest digits among the decimals that read back as the number, and the nearest
of those. A number `m · 2^q` is read back from every real in its rounding
interval, whose ends belong to it if `m` is even. The powers of ten are tried
from large to small, and on each grid the two multiples around the number.
-/

namespace TypedClient

namespace Decimal

/-- A positive binary number `mantissa · 2 ^ exponent` and the reals that round to it, in
quarters of the last place of the mantissa. -/
structure Binary where
  mantissa : Nat
  exponent : Int
  low : Nat
  high : Nat

/-- The number with the given exponent field and fraction field. -/
def binaryOf (exponent fraction : Nat) : Binary :=
  let mantissa := if exponent = 0 then fraction else 0x10000000000000 + fraction
  { mantissa
    exponent := (max exponent 1 : Int) - 1075
    low := if fraction = 0 ∧ 1 < exponent then 4 * mantissa - 1 else 4 * mantissa - 2
    high := 4 * mantissa + 2 }

/-- A quarter of the last place, counted in the unit that `gridUnit` is counted in too. -/
def quarterUnit (binary : Binary) (power : Int) : Nat :=
  Nat.pow 2 (binary.exponent - 2).toNat * Nat.pow 10 (-power).toNat

/-- The power of ten of a grid. -/
def gridUnit (binary : Binary) (power : Int) : Nat :=
  Nat.pow 10 power.toNat * Nat.pow 2 (2 - binary.exponent).toNat

/-- The multiple of the power of ten reads back as the number. -/
def readsBack (binary : Binary) (power : Int) (multiple : Nat) : Bool :=
  let point := multiple * gridUnit binary power
  let low := binary.low * quarterUnit binary power
  let high := binary.high * quarterUnit binary power
  0 < multiple &&
    if binary.mantissa % 2 = 0 then low ≤ point && point ≤ high else low < point && point < high

/-- The multiple of the power of ten that stands for the number, if there is one. -/
def onGrid? (binary : Binary) (power : Int) : Option Nat :=
  let value := 4 * binary.mantissa * quarterUnit binary power
  let unit := gridUnit binary power
  let below := value / unit
  match readsBack binary power below, readsBack binary power (below + 1) with
  | true, true =>
    let rest := 2 * (value % unit)
    if rest < unit ∨ (rest = unit ∧ below % 2 = 0) then some below else some (below + 1)
  | true, false => some below
  | false, true => some (below + 1)
  | false, false => none

/-- Tries `count` grids from the given power of ten downwards. -/
def search (binary : Binary) : Nat → Int → Option (Nat × Int)
  | 0, _ => none
  | count + 1, power =>
    match onGrid? binary power with
    | some multiple => some (multiple, power)
    | none => search binary count (power - 1)

def largestPower : Int := 309

def gridCount : Nat := 640

/-- The shortest decimal of a number given by its bits; infinities and the numbers that are
none have no decimal. -/
def ofBits? (bits : UInt64) : Option Decimal :=
  let bits := bits.toNat
  let negative := bits / 0x8000000000000000 = 1
  let exponent := bits / 0x10000000000000 % 0x800
  let fraction := bits % 0x10000000000000
  if exponent = 2047 then none
  else if exponent = 0 ∧ fraction = 0 then some ⟨negative, 0, 0⟩
  else (search (binaryOf exponent fraction) gridCount largestPower).map
    fun (digits, power) => ⟨negative, digits, power⟩

end Decimal

end TypedClient
