import TypedClient.Client
import TypedClient.Diagnostic
import TypedClient.Name
import TypedClient.Route
import TypedClient.Text.Ascii

/-!
# Binding parameters to the request

Every parameter of an operation feeds one part of the request. Bodies and
headers say so themselves. Placeholders of the route claim the first parameter
of their name that may stand in the path and is still free; an optional
placeholder without a parameter disappears together with the slash before it,
and a required one is an error. The parameters that remain become query
entries. Only scalars and one-dimensional collections of scalars can be carried
outside the body.
-/

namespace TypedClient

namespace SourceType

def isNullable (type : SourceType) : Bool :=
  match type.kind with
  | .generic .nullable _ => true
  | _ => false

def peelNullable : SourceType → SourceType
  | { kind := .generic .nullable [inner], .. } => peelNullable inner
  | type => type

def isScalar (type : SourceType) : Bool :=
  match type.peelNullable.kind with
  | .primitive _ => true
  | .string => true
  | .enumeration => true
  | _ => false

/-- The element type of a one-dimensional array or of a sequence. -/
def element? (type : SourceType) : Option SourceType :=
  match type.peelNullable.kind with
  | .array rank element => if rank = 1 then some element else none
  | .generic .sequence [element] => some element
  | _ => none

def isCollection (type : SourceType) : Bool :=
  type.element?.isSome

/-- Scalars and one-dimensional collections of scalars. -/
def isSimple (type : SourceType) : Bool :=
  type.isScalar || type.element?.any isScalar

end SourceType

namespace Operation

/-- The error of a parameter that cannot be bound, whatever the others are. -/
def bindingError? (operation : Operation) (parameter : Parameter) : Option CompileError :=
  match parameter.source with
  | .unknown source =>
    some (.unknownBinding operation.container operation.name parameter.name source)
  | .body => none
  | source =>
    if parameter.type.isSimple then none
    else some (.unbindableParameter operation.container operation.name parameter.name
      parameter.type.name source.name)

def bodies (operation : Operation) : List String :=
  (operation.parameters.filter (·.source = .body)).map Parameter.name

def checkBindings (operation : Operation) : Except CompileError Unit :=
  match operation.parameters.findSome? operation.bindingError? with
  | some error => .error error
  | none =>
    if 1 < operation.bodies.length then
      .error (.ambiguousBody operation.container operation.name operation.bodies)
    else .ok ()

end Operation

namespace Binding

/-- A parameter with its role, once it has one. -/
structure Slot where
  parameter : Parameter
  role : Option Role

def slotOf (parameter : Parameter) : Slot :=
  { parameter
    role := match parameter.source with
      | .body => some .body
      | .header => some .header
      | _ => none }

/-- The parameter may stand in the path. -/
def mayFill (parameter : Parameter) : Bool :=
  parameter.source = .path || parameter.source = .unbound

def accepts (name : String) (slot : Slot) : Bool :=
  slot.role.isNone && mayFill slot.parameter && Text.eqIgnoringCase slot.parameter.name name

/-- Gives the path role to the first slot that accepts the placeholder. -/
def claim? (name : String) : List Slot → Option (Parameter × List Slot)
  | [] => none
  | slot :: slots =>
    if accepts name slot then some (slot.parameter, { slot with role := some .path } :: slots)
    else (claim? name slots).map fun (parameter, rest) => (parameter, slot :: rest)

/-- Appends text to a path, continuing a literal segment at its end. -/
def appendLiteral (segments : List UriSegment) (text : String) : List UriSegment :=
  match segments.getLast? with
  | some (.literal last) => segments.dropLast ++ [.literal (last ++ text)]
  | _ => segments ++ [.literal text]

/-- Removes the slash at the end of a path, unless the literal is nothing but the slash. -/
def trimSlash (segments : List UriSegment) : List UriSegment :=
  match segments.getLast? with
  | some (.literal last) =>
    if 1 < last.length ∧ last.toList.getLast? = some '/' then
      segments.dropLast ++ [.literal (String.ofList last.toList.dropLast)]
    else segments
  | _ => segments

/-- Builds the path from left to right; the error names the first required placeholder that
no slot accepts. -/
def fillFrom (segments : List UriSegment) (slots : List Slot) :
    List RoutePart → Except String (List UriSegment × List Slot)
  | [] => .ok (segments, slots)
  | .literal text :: parts => fillFrom (appendLiteral segments text) slots parts
  | .placeholder name optional catchAll :: parts =>
    match claim? name slots with
    | some (parameter, slots) =>
      fillFrom (segments ++ [.parameter parameter.name catchAll]) slots parts
    | none =>
      if optional then fillFrom (trimSlash segments) slots parts else .error name

def queryEntry (parameter : Parameter) : QueryEntry :=
  { key := parameter.name
    parameter := parameter.name
    optional := parameter.optional || parameter.type.isNullable
    repeated := parameter.type.isCollection }

def Slot.query? (slot : Slot) : Option QueryEntry :=
  if slot.role.isNone then some (queryEntry slot.parameter) else none

def Slot.finalRole (slot : Slot) : Role :=
  slot.role.getD .query

end Binding

/-- The address of an operation and its parameters with their roles. -/
structure Bound where
  uri : UriTemplate
  parameters : List (Parameter × Role)

/-- The parameters of one role, in declaration order. -/
def Bound.ofRole (bound : Bound) (role : Role) : List Parameter :=
  (bound.parameters.filter (·.2 = role)).map Prod.fst

def Operation.routeParts (operation : Operation) : List RoutePart :=
  Route.parts operation.route (Name.containerBase operation.container) operation.name

def Operation.bind (operation : Operation) : Except CompileError Bound :=
  match Binding.fillFrom [] (operation.parameters.map Binding.slotOf) operation.routeParts with
  | .error placeholder =>
    .error (.unboundPlaceholder operation.container operation.name operation.route placeholder)
  | .ok (segments, slots) =>
    .ok
      { uri := { segments, query := slots.filterMap Binding.Slot.query? }
        parameters := slots.map fun slot => (slot.parameter, slot.finalRole) }

end TypedClient
