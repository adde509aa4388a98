/-!
# JSON values

A value as a program sees it after reading: numbers are integers of any size or
floating-point numbers, and an object keeps its fields in the order they were
written, repeated names included. Looking up a name finds its first field.
-/

namespace TypedClient

namespace Json

inductive Number where
  | integer (value : Int)
  | real (value : Float)

end Json

inductive Json where
  | null
  | bool (value : Bool)
  | number (value : Json.Number)
  | string (value : String)
  | array (items : List Json)
  | object (fields : List (String × Json))
  deriving Inhabited

namespace Json

def integer (value : Int) : Json :=
  .number (.integer value)

def natural (value : Nat) : Json :=
  .number (.integer value)

def strings (values : List String) : Json :=
  .array (values.map .string)

def ofOption {α : Type} (encode : α → Json) : Option α → Json
  | none => .null
  | some value => encode value

def fields? : Json → Option (List (String × Json))
  | object fields => some fields
  | _ => none

/-- The value of a named field; nothing is found in a value that is no object. -/
def field? (name : String) : Json → Option Json
  | object fields => fields.lookup name
  | _ => none

end Json

end TypedClient
