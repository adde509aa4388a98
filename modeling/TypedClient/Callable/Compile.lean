import TypedClient.Callable.Binding
import TypedClient.Callable.Strategy
import TypedClient.Docs
import TypedClient.Scope
import TypedClient.SourceType.Token

/-!
# From operations to callable functions

An operation with an unsupported request method is left out with a warning. Of
any other operation the bindings are checked, the route is filled, and each
type that it mentions is resolved.
-/

namespace TypedClient

inductive Outcome where
  | compiled (function : Callable)
  | skipped (diagnostic : Diagnostic)

namespace Operation

def formal (scope : Scope) (parameter : Parameter) (role : Role) : FormalParameter :=
  { name := parameter.name
    type := scope.resolve parameter.type
    token := parameter.type.token
    optional := parameter.optional
    role }

def headerBinding (parameter : Parameter) : HeaderBinding :=
  { header := parameter.name, parameter := parameter.name, optional := parameter.optional }

def function (scope : Scope) (docs : DocSource) (operation : Operation) (bound : Bound) : Callable :=
  { name := operation.name
    sourceName := operation.name
    verb := operation.verb
    params := bound.parameters.map fun (parameter, role) => formal scope parameter role
    returns := (operation.response.map scope.resolve).getD .void
    strategy := .ofResponse operation.response
    uri := bound.uri
    body := (bound.ofRole .body).getLast?.map Parameter.name
    headers := (bound.ofRole .header).map headerBinding
    doc := docs.find? operation.docKey (Docs.operationKey operation.container operation.name) }

def compile (scope : Scope) (docs : DocSource) (operation : Operation) : Except CompileError Outcome :=
  if operation.verb.isSupported then do
    operation.checkBindings
    let bound ← operation.bind
    return .compiled (operation.function scope docs bound)
  else
    .ok (.skipped (.unsupportedVerb operation.container operation.name operation.verb.name))

end Operation

end TypedClient
