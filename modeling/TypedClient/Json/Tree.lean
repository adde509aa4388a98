import TypedClient.Json.Basic

/-!
# JSON texts with their faults

A text that breaks off, or that stops being JSON half-way, still has a
beginning. The tree of a text keeps that beginning and marks where it ends, so
that a reader who goes from left to right meets the first problem first, be it
in the text or in what the text says. A scalar can be unfit as a value and yet
do no harm where nobody looks at it: a number out of range, or a string with
half of a surrogate pair.
-/

namespace TypedClient.Json

/-- How a text stops being JSON. -/
inductive Fault where
  /-- The text ends too early. -/
  | ended
  | malformed
  deriving DecidableEq, Repr

/-- A scalar that was read. One that has no value can be passed over unless the text breaks
inside it. -/
inductive Reading (α : Type) where
  | good (value : α)
  | bad (fault : Fault) (broken : Option Fault)

mutual

inductive Tree where
  /-- No value starts here. -/
  | missing (fault : Fault)
  /-- A word that is not completed. -/
  | broken (fault : Fault)
  | null
  | bool (value : Bool)
  | number (reading : Reading Number)
  | string (reading : Reading String)
  | list (items : Items)
  | object (fields : Fields)

inductive Items where
  | close
  | cut (fault : Fault)
  | item (value : Tree) (rest : Items)

/-- A field whose key or value breaks has no meaningful rest. -/
inductive Fields where
  | close
  | cut (fault : Fault)
  /-- Something other than a string stands where a key is expected. -/
  | noKey (key : Tree)
  | field (key : Reading String) (value : Tree) (rest : Fields)

end

/-- What is wrong with a key that is no string. -/
def Tree.keyFault : Tree → Fault
  | missing fault => fault
  | _ => .malformed

namespace Reading

variable {α : Type}

def value : Reading α → Except Fault α
  | good value => .ok value
  | bad fault _ => .error fault

def break? : Reading α → Option Fault
  | good _ => none
  | bad _ broken => broken

end Reading

mutual

/-- The fault met when a value is passed over without being looked at. -/
def Tree.break? : Tree → Option Fault
  | .missing fault => some fault
  | .broken fault => some fault
  | .null => none
  | .bool _ => none
  | .number reading => reading.break?
  | .string reading => reading.break?
  | .list items => Items.break? items
  | .object fields => Fields.break? fields

def Items.break? : Items → Option Fault
  | .close => none
  | .cut fault => some fault
  | .item value rest => (Tree.break? value).or (Items.break? rest)

def Fields.break? : Fields → Option Fault
  | .close => none
  | .cut fault => some fault
  | .noKey key => some key.keyFault
  | .field key value rest => (key.break?.or (Tree.break? value)).or (Fields.break? rest)

end

mutual

/-- The value of a text in which containers are nested at most `depth` deep. -/
def Tree.value (depth : Nat) : Tree → Except Fault Json
  | .missing fault => .error fault
  | .broken fault => .error fault
  | .null => .ok .null
  | .bool value => .ok (.bool value)
  | .number reading => reading.value.map .number
  | .string reading => reading.value.map .string
  | .list items => if depth = 0 then .error .malformed else (Items.values (depth - 1) items).map .array
  | .object fields =>
    if depth = 0 then .error .malformed else (Fields.values (depth - 1) fields).map .object

def Items.values (depth : Nat) : Items → Except Fault (List Json)
  | .close => .ok []
  | .cut fault => .error fault
  | .item value rest => do return (← Tree.value depth value) :: (← Items.values depth rest)

def Fields.values (depth : Nat) : Fields → Except Fault (List (String × Json))
  | .close => .ok []
  | .cut fault => .error fault
  | .noKey key => .error key.keyFault
  | .field key value rest => do
    return (← key.value, ← Tree.value depth value) :: (← Fields.values depth rest)

end

mutual

/-- The tree of a text that says exactly this value. -/
def Tree.ofJson : Json → Tree
  | .null => .null
  | .bool value => .bool value
  | .number value => .number (.good value)
  | .string value => .string (.good value)
  | .array items => .list (Items.ofList items)
  | .object fields => .object (Fields.ofPairs fields)

def Items.ofList : List Json → Items
  | [] => .close
  | item :: items => .item (Tree.ofJson item) (Items.ofList items)

def Fields.ofPairs : List (String × Json) → Fields
  | [] => .close
  | (name, value) :: fields => .field (.good name) (Tree.ofJson value) (Fields.ofPairs fields)

end

/-- Number of items up to the end of a list. -/
def Items.length : Items → Nat
  | close => 0
  | cut _ => 0
  | item _ rest => rest.length + 1

def Fields.ofTrees : List (String × Tree) → Fields
  | [] => .close
  | (name, value) :: fields => .field (.good name) value (ofTrees fields)

mutual

/-- How deep containers are nested in a value. -/
def depth : Json → Nat
  | array items => depthOfItems items + 1
  | object fields => depthOfFields fields + 1
  | _ => 0

def depthOfItems : List Json → Nat
  | [] => 0
  | item :: items => max (depth item) (depthOfItems items)

def depthOfFields : List (String × Json) → Nat
  | [] => 0
  | (_, value) :: fields => max (depth value) (depthOfFields fields)

end

end TypedClient.Json
