import TypedClient.Json.Basic
import TypedClient.TupleShape

/-!
# Tuples as JSON objects

A client exchanges a tuple as an object with the fields `item1`, `item2`, …
and, if there are further levels, `rest`. Reading takes the slots from `item1`
on, up to the first missing one, and fails only if something is not an object.
-/

namespace TypedClient.TupleShape

/-- The fields of consecutive slots from the given position on. -/
def slotFields : Nat → List Json → List (String × Json)
  | _, [] => []
  | position, item :: items => (fieldName position, item) :: slotFields (position + 1) items

def toJson : TupleShape Json → Json
  | last items => .object (slotFields 1 items)
  | more items rest => .object (slotFields 1 items ++ [(restName, toJson rest)])

/-- At most `count` slots from the given position on. -/
def readSlots (fields : List (String × Json)) : Nat → Nat → List Json
  | 0, _ => []
  | count + 1, position =>
    match fields.lookup (fieldName position) with
    | some item => item :: readSlots fields count (position + 1)
    | none => []

mutual

def ofJson? : Json → Option (TupleShape Json)
  | .object fields => levelOf? (readSlots fields positionalLimit 1) fields
  | _ => none

/-- The level with the given slots, and behind it what the first field `rest` holds. -/
def levelOf? (items : List Json) : List (String × Json) → Option (TupleShape Json)
  | [] => some (last items)
  | (name, value) :: fields =>
    if name = restName then (ofJson? value).map (more items) else levelOf? items fields

end

end TypedClient.TupleShape
