/-!
# Compact enumerations

A declared enumeration stores the value of its first constant as the base and
takes the constant at position `i` to have the value `base + i`. A value is
written out only where it differs from that, in particular where the sum would
leave the 64-bit range.
-/

namespace TypedClient

structure EnumConstant where
  name : String
  /-- The value, if it does not follow from the base and the position. -/
  explicit : Option Int64
  doc : Option String
  deriving DecidableEq

structure Enumeration where
  base : Int64
  constants : List EnumConstant
  deriving DecidableEq

namespace Enumeration

/-- The sum of a base and a position, if it is a 64-bit value. -/
def implicit? (base : Int64) (position : Nat) : Option Int64 :=
  let sum := base.toInt + position
  if sum ≤ Int64.maxValue.toInt then some (Int64.ofInt sum) else none

def compactFrom (base : Int64) : Nat → List (String × Int64 × Option String) → List EnumConstant
  | _, [] => []
  | position, (name, value, doc) :: rest =>
    { name, explicit := if implicit? base position = some value then none else some value, doc } ::
      compactFrom base (position + 1) rest

/-- Stores named values, given in declaration order with their documentation. -/
def compact (constants : List (String × Int64 × Option String)) : Enumeration :=
  let base := match constants with
    | [] => 0
    | (_, value, _) :: _ => value
  { base, constants := compactFrom base 0 constants }

def valuesFrom (base : Int64) : Nat → List EnumConstant → List (String × Int64)
  | _, [] => []
  | position, constant :: rest =>
    (constant.name, (constant.explicit.or (implicit? base position)).getD base) ::
      valuesFrom base (position + 1) rest

/-- The names and values in declaration order. -/
def values (enumeration : Enumeration) : List (String × Int64) :=
  valuesFrom enumeration.base 0 enumeration.constants

end Enumeration

end TypedClient
