import TypedClient.TupleShape

/-!
# Client type references

A reference is the client's view of a source type. A name with a namespace
points at a declaration of the same run; a name without one belongs to somebody
else and is kept as the source system spells it. The nodes of a reference are
listed from the outside in, and from left to right.
-/

namespace TypedClient

/-- Scalar types of the client. -/
inductive Scalar where
  | boolean | integer | float | decimal | string | guid | dateTime | duration | uri
  deriving DecidableEq, Repr

def Scalar.name : Scalar → String
  | boolean => "boolean"
  | integer => "integer"
  | float => "float"
  | decimal => "decimal"
  | string => "string"
  | guid => "guid"
  | dateTime => "datetime"
  | duration => "duration"
  | uri => "uri"

inductive TypeRef where
  | scalar (scalar : Scalar)
  | named (space : Option String) (name : String) (args : List TypeRef)
  | array (element : TypeRef) (rank : Nat)
  | nullable (inner : TypeRef)
  | tuple (shape : TupleShape TypeRef)
  | dictionary (key value : TypeRef)
  /-- A sequence that is not flattened to an array. -/
  | sequence (element : TypeRef)
  /-- A whole response body. -/
  | rawResponse
  /-- A value without a declared shape. -/
  | looseObject
  | parameter (name : String)
  | void

namespace TypeRef

/-- Marks a reference as nullable once, however often it is asked for. -/
def orNull : TypeRef → TypeRef
  | nullable inner => nullable inner
  | type => nullable type

def qualify (space : Option String) (name : String) : String :=
  match space with
  | some space => space ++ "." ++ name
  | none => name

def brackets (rank : Nat) : String :=
  "[" ++ String.ofList (List.replicate (rank - 1) ',') ++ "]"

mutual

/-- The text of a reference in messages. -/
def display : TypeRef → String
  | scalar primitive => primitive.name
  | named space name args =>
    qualify space name ++ match displays args with
      | [] => ""
      | texts => "<" ++ ", ".intercalate texts ++ ">"
  | array element rank => display element ++ brackets rank
  | nullable inner => display inner ++ "?"
  | tuple shape => displayShape shape
  | dictionary key value => "Dictionary<" ++ display key ++ ", " ++ display value ++ ">"
  | sequence element => "Sequence<" ++ display element ++ ">"
  | rawResponse => "response"
  | looseObject => "object"
  | parameter name => name
  | void => "void"

def displays : List TypeRef → List String
  | [] => []
  | type :: types => display type :: displays types

def displayShape : TupleShape TypeRef → String
  | .last items => "(" ++ ", ".intercalate (displays items) ++ ")"
  | .more items rest =>
    "(" ++ ", ".intercalate (displays items) ++ ", rest: " ++ displayShape rest ++ ")"

end

mutual

/-- A reference and everything nested in it, each before its own parts. -/
def nodes : TypeRef → List TypeRef
  | named space name args => named space name args :: nodesOfList args
  | array element rank => array element rank :: nodes element
  | nullable inner => nullable inner :: nodes inner
  | tuple shape => tuple shape :: nodesOfShape shape
  | dictionary key value => dictionary key value :: (nodes key ++ nodes value)
  | sequence element => sequence element :: nodes element
  | type => [type]

def nodesOfList : List TypeRef → List TypeRef
  | [] => []
  | type :: types => nodes type ++ nodesOfList types

def nodesOfShape : TupleShape TypeRef → List TypeRef
  | .last items => nodesOfList items
  | .more items rest => nodesOfList items ++ nodesOfShape rest

end

@[simp]
theorem displays_eq_map (types : List TypeRef) : displays types = types.map display := by
  induction types with
  | nil => rfl
  | cons type types ih => simp [displays, ih]

@[simp]
theorem nodesOfList_eq_flatMap (types : List TypeRef) :
    nodesOfList types = types.flatMap nodes := by
  induction types with
  | nil => rfl
  | cons type types ih => simp [nodesOfList, ih]

@[simp]
theorem nodesOfShape_eq_flatMap (shape : TupleShape TypeRef) :
    nodesOfShape shape = shape.unfold.flatMap nodes := by
  induction shape with
  | last items => simp [nodesOfShape, TupleShape.unfold]
  | more items rest ih => simp [nodesOfShape, TupleShape.unfold, ih]

end TypeRef

end TypedClient
