import TypedClient.Diagnostic
import TypedClient.Ordered
import TypedClient.SourceType.WellKnown

/-!
# Types that can be declared

A run declares custom types and generic definitions as records, and
enumerations as enumerations. Every other type is left out with a reason. A
qualified name counts once: the first descriptor decides, and repetitions are
passed over in silence.
-/

namespace TypedClient

inductive DeclarableAs where
  | record
  | enumeration
  deriving DecidableEq, Repr

/-- Why a type is not declared. -/
inductive Undeclarable where
  | framework
  | closedGeneric
  | scalar
  | array
  | typeParameter
  deriving DecidableEq, Repr

def Undeclarable.reason : Undeclarable → String
  | framework => "framework type with a fixed client mapping"
  | closedGeneric => "closed generic type; only generic definitions are declared"
  | scalar => "scalar types map to client primitives"
  | array => "array types are referenced, not declared"
  | typeParameter => "open type parameters are not declarations"

namespace SourceType

def classify (type : SourceType) : Except Undeclarable DeclarableAs :=
  if type.wellKnown?.isSome then .error .framework
  else match type.kind with
    | .custom => .ok .record
    | .enumeration => .ok .enumeration
    | .generic .custom _ => if type.typeParams = [] then .error .closedGeneric else .ok .record
    | .generic _ _ => .error .closedGeneric
    | .primitive _ => .error .scalar
    | .string => .error .scalar
    | .array _ _ => .error .array
    | .parameter => .error .typeParameter

def isDeclarable (type : SourceType) : Bool :=
  type.classify.isOk

def undeclared? (type : SourceType) : Option Diagnostic :=
  match type.classify with
  | .ok _ => none
  | .error why => some (.unsupportedType type.name why.reason)

/-- The types to declare: of each name the first descriptor, if it can be declared. -/
def pending (types : List SourceType) : List SourceType :=
  (Ordered.firstsBy name types).filter isDeclarable

/-- One warning for each name whose first descriptor cannot be declared. -/
def undeclared (types : List SourceType) : List Diagnostic :=
  (Ordered.firstsBy name types).filterMap undeclared?

end SourceType

end TypedClient
