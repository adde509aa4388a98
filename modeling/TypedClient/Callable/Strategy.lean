import TypedClient.Client
import TypedClient.SourceType.WellKnown

/-!
# Reading a response

The declared response decides how a function reads what it receives. Deferred
values, nullable layers and typed response wrappers are looked through; a
deferred value without an argument has nothing to read.
-/

namespace TypedClient.ReturnStrategy

/-- The strategy of a type that is no wrapper. -/
def ofPlain (name : String) (kind : TypeKind) : ReturnStrategy :=
  match WellKnown.of? name kind, kind with
  | some .void, _ => nothing
  | some .rawResponse, _ => stream
  | some .looseObject, _ => dynamic
  | _, .string => text
  | _, .primitive _ => scalar
  | _, .enumeration => scalar
  | _, _ => structured

def ofType : SourceType → ReturnStrategy
  | { kind := .generic .deferred [], .. } => nothing
  | { name, kind := .generic family [inner], .. } =>
    if family = .deferred ∨ family = .nullable ∨ WellKnown.ofName? name = some .rawResponse then
      ofType inner
    else ofPlain name (.generic family [inner])
  | { name, kind, .. } => ofPlain name kind

def ofResponse : Option SourceType → ReturnStrategy
  | none => nothing
  | some type => ofType type

end TypedClient.ReturnStrategy
