import TypedClient.Json.Printer
import TypedClient.Json.Reader
import TypedClient.Text.Quoted

/-!
# Decoding JSON

A decoder looks at the tree of a text from left to right and stops at the first
problem, which is either a fault of the text or a value of the wrong shape. It
knows how deep containers may still be nested, and whether the value was
collected before it is looked at: a collected value is free of faults, and
alternatives and lengths are reported differently for it.
-/

namespace TypedClient.Json

/-- What a text holds at a place where something else is expected. -/
inductive Found where
  | null
  | bool (value : Bool)
  | integer (value : Int)
  /-- A real number by its text, which is not the same in every format. -/
  | real (text : String)
  | string (value : String)
  | list
  | object

def Found.text : Found → String
  | null => "null"
  | bool true => "boolean \x60true\x60"
  | bool false => "boolean \x60false\x60"
  | integer value => "integer \x60" ++ toString value ++ "\x60"
  | real text => "floating point \x60" ++ text ++ "\x60"
  | string value => "string " ++ Text.quoted value
  | list => "sequence"
  | object => "map"

/-- A value that is not what its place asks for. -/
inductive ShapeError where
  | invalidType (found : Found) (expected : String)
  | invalidValue (found : Found) (expected : String)
  | invalidLength (length : Nat) (expected : String)
  | missingField (name : String)
  | duplicateField (name : String)
  | unknownField (name : String) (known : List String)
  | unknownVariant (name : String) (known : List String)

def inBackticks (name : String) : String :=
  "\x60" ++ name ++ "\x60"

/-- The names that would have been accepted. -/
def oneOfText : List String → String
  | [single] => inBackticks single
  | [first, second] => inBackticks first ++ " or " ++ inBackticks second
  | names => "one of " ++ ", ".intercalate (names.map inBackticks)

def ShapeError.message : ShapeError → String
  | invalidType found expected => "invalid type: " ++ found.text ++ ", expected " ++ expected
  | invalidValue found expected => "invalid value: " ++ found.text ++ ", expected " ++ expected
  | invalidLength length expected =>
    "invalid length " ++ toString length ++ ", expected " ++ expected
  | missingField name => "missing field " ++ inBackticks name
  | duplicateField name => "duplicate field " ++ inBackticks name
  | unknownField name known =>
    "unknown field " ++ inBackticks name ++ ", expected " ++ oneOfText known
  | unknownVariant name known =>
    "unknown variant " ++ inBackticks name ++ ", expected " ++ oneOfText known

inductive Problem where
  | fault (fault : Fault)
  | shape (error : ShapeError)

/-- How a value is reached. -/
structure Place where
  /-- How deep containers may be nested here. -/
  depth : Nat
  /-- The value was collected as a whole before. -/
  collected : Bool := false

abbrev Decoder (α : Type) := Place → Tree → Except Problem α

namespace Decoder

variable {α β σ : Type}

def throwFault (fault : Fault) : Except Problem α :=
  .error (.fault fault)

def throwShape (error : ShapeError) : Except Problem α :=
  .error (.shape error)

def take (reading : Reading α) : Except Problem α :=
  match reading with
  | .good value => .ok value
  | .bad fault _ => throwFault fault

/-- What stands at the front of a tree; a scalar is read to its end for this. -/
def found : Tree → Except Problem Found
  | .missing fault => throwFault fault
  | .broken fault => throwFault fault
  | .null => .ok .null
  | .bool value => .ok (.bool value)
  | .number reading => do
    match ← take reading with
    | .integer value => return .integer value
    | .real value => return .real (realText value)
  | .string reading => do return .string (← take reading)
  | .list _ => .ok .list
  | .object _ => .ok .object

def mismatch (expected : String) (tree : Tree) : Except Problem α := do
  throwShape (.invalidType (← found tree) expected)

/-- The place inside a container, unless containers are nested too deep. -/
def enter (place : Place) : Except Problem Place :=
  match place.depth with
  | 0 => throwFault .malformed
  | depth + 1 => .ok { place with depth }

def map (f : α → β) (decode : Decoder α) : Decoder β :=
  fun place tree => (decode place tree).map f

def string : Decoder String := fun _ tree =>
  match tree with
  | .string reading => take reading
  | tree => mismatch "a string" tree

def bool : Decoder Bool := fun _ tree =>
  match tree with
  | .bool value => .ok value
  | tree => mismatch "a boolean" tree

/-- An integer from `low` to `high`. -/
def integer (expected : String) (low high : Int) : Decoder Int := fun _ tree =>
  match tree with
  | .number (.good (.integer value)) =>
    if low ≤ value ∧ value ≤ high then .ok value
    else throwShape (.invalidValue (.integer value) expected)
  | tree => mismatch expected tree

def int64 : Decoder Int64 :=
  map Int64.ofInt (integer "i64" (-0x8000000000000000) 0x7fffffffffffffff)

def uint32 : Decoder UInt32 :=
  map (fun value => UInt32.ofNat value.toNat) (integer "u32" 0 0xffffffff)

def option (decode : Decoder α) : Decoder (Option α) := fun place tree =>
  match tree with
  | .null => .ok none
  | tree => (decode place tree).map some

def items (decode : Decoder α) (place : Place) : Items → Except Problem (List α)
  | .close => .ok []
  | .cut fault => throwFault fault
  | .item value rest => do return (← decode place value) :: (← items decode place rest)

def list (decode : Decoder α) : Decoder (List α) := fun place tree =>
  match tree with
  | .list found => do items decode (← enter place) found
  | tree => mismatch "a sequence" tree

def entries (decode : Decoder α) (place : Place) : Fields → Except Problem (List (String × α))
  | .close => .ok []
  | .cut fault => throwFault fault
  | .noKey key => throwFault key.keyFault
  | .field key value rest => do
    return (← take key, ← decode place value) :: (← entries decode place rest)

/-- An object with arbitrary names. -/
def dictionary (decode : Decoder α) : Decoder (List (String × α)) := fun place tree =>
  match tree with
  | .object fields => do entries decode (← enter place) fields
  | tree => mismatch "a map" tree

/-! ## Alternatives -/

def variant (all : List α) (tag : α → String) (name : String) : Except Problem α :=
  match all.find? (tag · = name) with
  | some value => .ok value
  | none => throwShape (.unknownVariant name (all.map tag))

/-- An alternative without contents may carry a null, and a collected one an empty object. -/
def noContents (place : Place) (tree : Tree) : Except Problem Unit :=
  match tree with
  | .null => .ok ()
  | .object .close => if place.collected then .ok () else mismatch "unit" tree
  | tree => mismatch "unit" tree

/-- An alternative written as an object with one field, whose name it is. -/
def taggedObject (choose : String → Except Problem α) (place : Place) :
    Fields → Except Problem α
  | .close =>
    if place.collected then throwShape (.invalidValue .object "map with a single key")
    else throwFault .malformed
  | .cut fault => throwFault fault
  | .noKey key => mismatch "variant identifier" key
  | .field key value rest =>
    if place.collected then
      match rest with
      | .field .. => throwShape (.invalidValue .object "map with a single key")
      | _ => do
        let chosen ← choose (← take key)
        noContents place value
        return chosen
    else do
      let chosen ← choose (← take key)
      noContents place value
      match rest with
      | .close => return chosen
      | .cut fault => throwFault fault
      | _ => throwFault .malformed

/-- One of some names. -/
def oneOf (all : List α) (tag : α → String) : Decoder α := fun place tree =>
  match tree with
  | .string reading => do variant all tag (← take reading)
  | .object fields => do
    if place.collected then taggedObject (variant all tag) place fields
    else taggedObject (variant all tag) (← enter place) fields
  | .missing fault => throwFault fault
  | tree => if place.collected then mismatch "string or map" tree else throwFault .malformed

/-- The name of an alternative; in a collected value its number will do. -/
def tagOf (all : List α) (tag : α → String) : Decoder α := fun place tree =>
  match tree with
  | .string reading => do variant all tag (← take reading)
  | .number (.good (.integer value)) =>
    if place.collected ∧ 0 ≤ value then
      match all[value.toNat]? with
      | some chosen => .ok chosen
      | none => throwShape (.invalidValue (.integer value)
          ("variant index 0 <= i < " ++ toString all.length))
    else mismatch "variant identifier" tree
  | tree => mismatch "variant identifier" tree

/-! ## Records -/

/-- A named part of a record of type `σ`, with the decoder of a value that stores it. -/
structure Part (σ : Type) where
  name : String
  required : Bool
  decode : Decoder (σ → σ)

/-- A part that has to be there. -/
def required (name : String) (decode : Decoder α) (store : α → σ → σ) : Part σ :=
  { name, required := true, decode := map store decode }

/-- A part with a default. -/
def withDefault (name : String) (decode : Decoder α) (store : α → σ → σ) : Part σ :=
  { name, required := false, decode := map store decode }

/-- The parts of a record in order, the name used for it in messages, and its defaults. -/
structure Schema (σ : Type) where
  title : String
  blank : σ
  parts : List (Part σ)

def Schema.lengthText (schema : Schema σ) : String :=
  schema.title ++ " with " ++ toString schema.parts.length ++
    if schema.parts.length = 1 then " element" else " elements"

/-- Stores the fields of an object as they come; names of no part are passed over. -/
def fields (schema : Schema σ) (place : Place) (seen : List String) (draft : σ) :
    Fields → Except Problem σ
  | .close =>
    match schema.parts.find? fun part => part.required && part.name ∉ seen with
    | some part => throwShape (.missingField part.name)
    | none => .ok draft
  | .cut fault => throwFault fault
  | .noKey key => throwFault key.keyFault
  | .field key value rest => do
    let name ← take key
    match schema.parts.find? (·.name = name) with
    | none =>
      match value.break? with
      | some fault => throwFault fault
      | none => fields schema place seen draft rest
    | some part =>
      if name ∈ seen then throwShape (.duplicateField name)
      else
        let store ← part.decode place value
        fields schema place (name :: seen) (store draft) rest

def elementsText (count : Nat) : String :=
  toString count ++ (if count = 1 then " element" else " elements") ++ " in sequence"

/-- What follows when `count` items of a list have been used up. -/
def finish (place : Place) (count : Nat) : Items → Except Problem Unit
  | .close => .ok ()
  | .cut fault => throwFault fault
  | .item value rest =>
    if place.collected then
      throwShape (.invalidLength (count + (Items.item value rest).length) (elementsText count))
    else throwFault .malformed

/-- Stores the items of a list into the parts in order, of which `count` are done. -/
def positions (schema : Schema σ) (place : Place) (draft : σ) :
    Nat → List (Part σ) → Items → Except Problem σ
  | count, [], items => do
    finish place count items
    return draft
  | _, _ :: _, .cut fault => throwFault fault
  | count, part :: parts, .item value rest => do
    let store ← part.decode place value
    positions schema place (store draft) (count + 1) parts rest
  | count, part :: parts, .close =>
    match (part :: parts).findIdx? Part.required with
    | some index => throwShape (.invalidLength (count + index) schema.lengthText)
    | none => .ok draft

/-- A record, written as an object or as the list of its parts. -/
def record (schema : Schema σ) : Decoder σ := fun place tree =>
  match tree with
  | .object found => do fields schema (← enter place) [] schema.blank found
  | .list found => do positions schema (← enter place) schema.blank 0 schema.parts found
  | tree => mismatch schema.title tree

/-! ## Values inside values of their own kind -/

/-- The decoder that allows `levels` levels. -/
def nested (step : Decoder α → Decoder α) : Nat → Decoder α
  | 0 => fun _ _ => throwFault .malformed
  | levels + 1 => step (nested step levels)

/-- A decoder defined through itself. Containers are nested at most as deep as the place
allows, so there are no more levels than that. -/
def fixed (step : Decoder α → Decoder α) : Decoder α := fun place tree =>
  nested step (place.depth + 1) place tree

/-- Decodes a whole document. -/
def decodeDocument (decode : Decoder α) (document : Document) : Except Problem α := do
  let value ← decode { depth := depthLimit } document.root
  match document.tail with
  | some fault => throwFault fault
  | none => return value

def decodeText (decode : Decoder α) (text : String) : Except Problem α :=
  decodeDocument decode (readDocument text)

/-- Decodes a value; there is no limit to its depth. -/
def decodeJson (decode : Decoder α) (value : Json) : Except Problem α :=
  decode { depth := value.depth } (Tree.ofJson value)

end Decoder

end TypedClient.Json
