import TypedClient.Client
import TypedClient.TypeScript.Syntax

/-!
# TypeScript types of references

Scalars become strings, numbers and booleans, declared types keep their
qualified names, nullables get `null` as a second member, and a tuple becomes
an object with one property for each slot. Only strings and numbers can be the
keys of a record, so any other key type is replaced by `string`.
-/

namespace TypedClient

open TypeScript (Ty Property Keyword)

def Scalar.keyword : Scalar → Keyword
  | boolean => .boolean
  | integer | float | decimal => .number
  | string | guid | dateTime | duration | uri => .string

namespace TypeScript.Ty

/-- The type below the given number of array layers. -/
def arrays : Nat → Ty → Ty
  | 0, element => element
  | rank + 1, element => array (arrays rank element)

def recordKey : Ty → Ty
  | keyword .number => keyword .number
  | _ => keyword .string

/-- The properties of consecutive tuple slots from the given position on. -/
def slotProperties : Nat → List Ty → List Property
  | _, [] => []
  | position, type :: types =>
    { name := TupleShape.fieldName position, type } :: slotProperties (position + 1) types

mutual

def ofRef : TypeRef → Ty
  | .scalar primitive => keyword primitive.keyword
  | .named space name args => reference (TypeRef.qualify space name) (ofRefs args)
  | .array element rank => arrays (max rank 1) (ofRef element)
  | .nullable inner => (ofRef inner).orNull
  | .tuple shape => object (ofShape shape)
  | .dictionary key value => record (recordKey (ofRef key)) (ofRef value)
  | .sequence element => reference "ReadonlyArray" [ofRef element]
  | .rawResponse => reference "Blob" []
  | .looseObject => keyword .unknown
  | .parameter name => reference name []
  | .void => keyword .void

def ofRefs : List TypeRef → List Ty
  | [] => []
  | type :: types => ofRef type :: ofRefs types

def ofShape : TupleShape TypeRef → List Property
  | .last items => slotProperties 1 (ofRefs items)
  | .more items rest =>
    slotProperties 1 (ofRefs items) ++
      [{ name := TupleShape.restName, type := object (ofShape rest) }]

end

@[simp]
theorem ofRefs_eq_map (types : List TypeRef) : ofRefs types = types.map ofRef := by
  induction types with
  | nil => rfl
  | cons type types ih => simp [ofRefs, ih]

/-- The type of the value a function promises. -/
def ofReturn (strategy : ReturnStrategy) (returns : TypeRef) : Ty :=
  match strategy with
  | .stream => reference "Blob" []
  | .dynamic => keyword .unknown
  | .text => (keyword .string).orNull
  | .nothing => keyword .void
  | .scalar => ofRef returns
  | .structured => ofRef returns

end TypeScript.Ty

end TypedClient
