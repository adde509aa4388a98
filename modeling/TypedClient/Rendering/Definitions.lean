import TypedClient.Rendering.Types
import TypedClient.TypeScript.Identifier

/-!
# Interfaces and enumerations

A record becomes an interface whose property names are in camel case, optional
unless the field is required. An enumeration keeps its names and values; a
value is written only where counting on from the constant before, or from zero
at the start, does not give it.
-/

namespace TypedClient

open TypeScript (Ty Property EnumMember Definition TypeDefinition)

namespace TypeScript

def Property.ofField (field : Field) : Property :=
  { name := camelCase field.name
    type := .ofRef field.type
    optional := !field.required
    doc := field.doc }

def Definition.ofRecord (record : Record) : Definition :=
  .interface record.typeParams (record.base.map fun base => Ty.ofRef base.target)
    (record.fields.map Property.ofField)

/-- The number that counting reaches after a value; counting stops at the largest one. -/
def nextValue (value : Int64) : Int64 :=
  if value = Int64.maxValue then value else value + 1

/-- The members with the given values and documentation, where counting has reached `next`. -/
def EnumMember.numberFrom (next : Int64) :
    List ((String × Int64) × EnumConstant) → List EnumMember
  | [] => []
  | ((name, value), constant) :: rest =>
    { name
      initializer := if value = next then none else some value.toInt
      doc := constant.doc } :: numberFrom (nextValue value) rest

def Definition.ofEnumeration (enumeration : Enumeration) : Definition :=
  .enumeration (EnumMember.numberFrom 0 (enumeration.values.zip enumeration.constants))

def TypeDefinition.ofDeclaration (declaration : Declaration) : TypeDefinition :=
  { name := declaration.name
    doc := declaration.doc
    definition := match declaration.shape with
      | .record record => .ofRecord record
      | .enumeration enumeration => .ofEnumeration enumeration }

end TypeScript

end TypedClient
