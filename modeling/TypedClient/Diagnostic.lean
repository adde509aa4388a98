/-!
# Errors and warnings of a run

An error stops a run at the first problem that would make a client wrong. A
warning reports something that was left out or could not be settled, and the
run goes on.
-/

namespace TypedClient

inductive CompileError where
  /-- Several parameters are bound to the request body. -/
  | ambiguousBody (container operation : String) (parameters : List String)
  /-- A structured type is bound to a part of the request that carries text only. -/
  | unbindableParameter (container operation parameter type binding : String)
  /-- The binding source of a parameter is not known. -/
  | unknownBinding (container operation parameter binding : String)
  /-- No parameter fills a required placeholder of the route. -/
  | unboundPlaceholder (container operation route placeholder : String)
  /-- A reference into a client namespace has no declaration behind it. -/
  | danglingReference (context reference : String)
  deriving DecidableEq, Repr

inductive Diagnostic where
  /-- A type that is neither like a record nor like an enumeration. -/
  | unsupportedType (type reason : String)
  | unsupportedVerb (container operation verb : String)
  /-- A name that the run does not declare. -/
  | externalReference (reference : String)
  /-- Functions of one container that still share a name. -/
  | unresolvedOverload (container name : String)
  deriving DecidableEq, Repr

def CompileError.message : CompileError → String
  | ambiguousBody container operation parameters =>
    container ++ "." ++ operation ++ ": ambiguous request body, parameters " ++
      ", ".intercalate parameters ++ " are all body-bound"
  | unbindableParameter container operation parameter type binding =>
    container ++ "." ++ operation ++ ": parameter '" ++ parameter ++ "' of type '" ++ type ++
      "' is bound to " ++ binding ++
      ", but only primitives, enums and simple arrays can be carried there"
  | unknownBinding container operation parameter binding =>
    container ++ "." ++ operation ++ ": parameter '" ++ parameter ++
      "' has unresolvable binding source '" ++ binding ++ "'"
  | unboundPlaceholder container operation route placeholder =>
    container ++ "." ++ operation ++ ": route placeholder '\x7b" ++ placeholder ++ "\x7d' in '" ++
      route ++ "' has no matching parameter"
  | danglingReference context reference =>
    context ++ ": '" ++ reference ++ "' does not resolve to any generated declaration"

def Diagnostic.message : Diagnostic → String
  | unsupportedType type reason => "skipped type '" ++ type ++ "': " ++ reason
  | unsupportedVerb container operation verb =>
    "skipped operation " ++ container ++ "." ++ operation ++ ": unsupported HTTP verb '" ++
      verb ++ "'"
  | externalReference reference =>
    "'" ++ reference ++ "' is not generated in this run and is referenced as-is"
  | unresolvedOverload container name =>
    container ++ ": callables named '" ++ name ++ "' still collide after disambiguation"

end TypedClient
