import TypedClient.Config
import TypedClient.Name
import TypedClient.Registry
import TypedClient.SourceType.WellKnown
import TypedClient.TypeRef

/-!
# References to source types

Within a run, a source type stands for a client reference. Types that the run
declares are referred to by their client namespace and short name; framework
types have fixed replacements; generic families become nullables, tuples,
dictionaries, arrays or sequences; and everything else keeps its name, without
a namespace. The reference depends on the descriptor, the registry and the
configuration alone.
-/

namespace TypedClient

/-- The declarations a run makes and the settings it makes them with. -/
structure Scope where
  registry : Registry
  config : Config

def Primitive.scalar : Primitive → Scalar
  | boolean => .boolean
  | char => .string
  | byte | sbyte | int16 | uint16 | int32 | uint32 | int64 | uint64 => .integer
  | single | double => .float
  | decimal => .decimal
  | guid => .guid
  | dateTime | dateTimeOffset => .dateTime
  | timeSpan => .duration
  | uri => .uri

def WellKnown.reference : WellKnown → TypeRef
  | rawResponse => .rawResponse
  | looseObject | wrapper => .looseObject
  | void => .void

namespace Scope

/-- A type from outside the run without arguments. -/
def external (name : String) (kind : TypeKind) : TypeRef :=
  match WellKnown.of? name kind with
  | some known => known.reference
  | none => .named none name []

/-- A generic type from outside the families below, with its arguments already resolved. -/
def externalGeneric (name : String) (args : List TypeRef) : TypeRef :=
  match WellKnown.ofName? name, args with
  | some .rawResponse, [inner] => inner
  | some known, _ => known.reference
  | none, args => .named none (Name.stripArity name) args

/-- A generic type with its arguments already resolved. -/
def generic (config : Config) (name : String) : GenericFamily → List TypeRef → TypeRef
  | .nullable, [inner] => inner.orNull
  | .tuple, first :: rest => .tuple (TupleShape.fold (first :: rest))
  | .dictionary, [key, value] => .dictionary key value
  | .deferred, [] => .void
  | .deferred, [inner] => inner
  | .sequence, [element] => if config.sequenceToArray then .array element 1 else .sequence element
  | _, args => externalGeneric name args

mutual

def resolve (scope : Scope) : SourceType → TypeRef
  | { name, space, kind, typeParams, .. } =>
    if scope.registry.contains name then
      .named (some (scope.config.targetSpace space)) (Name.short name space)
        (resolveParams scope typeParams kind)
    else resolveKind scope name kind

/-- The arguments of a declared type: those of a closed generic, or else the type parameters
of the definition. -/
def resolveParams (scope : Scope) (typeParams : List String) : TypeKind → List TypeRef
  | .generic _ (first :: rest) => resolve scope first :: resolveList scope rest
  | _ => typeParams.map .parameter

def resolveKind (scope : Scope) (name : String) : TypeKind → TypeRef
  | .primitive primitive => .scalar primitive.scalar
  | .string => .scalar .string
  | .enumeration => .scalar .integer
  | .array rank element => .array (resolve scope element) rank.toNat
  | .generic family args => generic scope.config name family (resolveList scope args)
  | .parameter => .parameter name
  | .custom => external name .custom

def resolveList (scope : Scope) : List SourceType → List TypeRef
  | [] => []
  | type :: types => resolve scope type :: resolveList scope types

end

@[simp]
theorem resolveList_eq_map (scope : Scope) (types : List SourceType) :
    resolveList scope types = types.map scope.resolve := by
  induction types with
  | nil => rfl
  | cons type types ih => simp [resolveList, ih]

end Scope

end TypedClient
