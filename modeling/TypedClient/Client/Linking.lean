import TypedClient.Client
import TypedClient.Diagnostic
import TypedClient.Ordered
import TypedClient.Scope

/-!
# Linking

The base of a record is replaced by a reference into the client when its type
is declared in the run, or when its namespace is one of the run. After that,
every reference with a namespace has to meet a declaration; the first one that
does not is an error. Names without a namespace are reported once each, in
ascending order.
-/

namespace TypedClient

namespace Base

/-- Client namespace and name of a base that belongs to the run. -/
def target? (scope : Scope) (base : Base) : Option (String × String) :=
  match scope.registry.get? base.sourceName with
  | some type => some (scope.config.targetSpace type.space, Name.short type.name type.space)
  | none =>
    if scope.registry.containsSpace base.sourceSpace then
      some (scope.config.targetSpace base.sourceSpace, Name.short base.sourceName base.sourceSpace)
    else none

def link (scope : Scope) (base : Base) : Base :=
  match base.target? scope, base.target with
  | some (space, name), .named _ _ args => { base with target := .named (some space) name args }
  | _, _ => base

end Base

namespace Declaration

def link (scope : Scope) (declaration : Declaration) : Declaration :=
  match declaration.shape with
  | .record record =>
    { declaration with shape := .record { record with base := record.base.map (Base.link scope) } }
  | .enumeration _ => declaration

end Declaration

/-- A reference and where it stands. -/
structure Mention where
  context : String
  type : TypeRef

namespace TypeRef

/-- The qualified name, if the node points into the client and misses. -/
def dangling? (declared : List (String × String)) : TypeRef → Option String
  | .named (some space) name _ =>
    if declared.contains (space, name) then none else some (space ++ "." ++ name)
  | _ => none

def external? : TypeRef → Option String
  | .named none name _ => some name
  | _ => none

end TypeRef

namespace Mention

/-- The error of one mention, if something in it dangles. -/
def error? (declared : List (String × String)) (mention : Mention) : Option CompileError :=
  (mention.type.nodes.findSome? (TypeRef.dangling? declared)).map (.danglingReference mention.context)

def externals (mention : Mention) : List String :=
  mention.type.nodes.filterMap TypeRef.external?

end Mention

namespace Client

def linkBases (scope : Scope) (client : Client) : Client :=
  client.map fun space =>
    { space with declarations := space.declarations.map (Declaration.link scope) }

def recordMentions (owner : String) (record : Record) : List Mention :=
  (record.base.map fun base => ⟨owner ++ " (base)", base.target⟩).toList ++
    record.fields.map fun field => ⟨owner ++ "." ++ field.name, field.type⟩

def functionMentions (owner : String) (function : Callable) : List Mention :=
  ⟨owner ++ " (return)", function.returns⟩ ::
    function.params.map fun param => ⟨owner ++ "(" ++ param.name ++ ")", param.type⟩

def declarationMentions (space : String) (declaration : Declaration) : List Mention :=
  match declaration.shape with
  | .record record => recordMentions (space ++ "." ++ declaration.name) record
  | .enumeration _ => []

def containerMentions (space : String) (container : Container) : List Mention :=
  container.functions.flatMap fun function =>
    functionMentions (space ++ "." ++ container.name ++ "." ++ function.name) function

/-- Every reference of a client, in the order of the client. -/
def mentions (client : Client) : List Mention :=
  client.flatMap fun space =>
    space.declarations.flatMap (declarationMentions space.name) ++
      space.containers.flatMap (containerMentions space.name)

/-- The names from outside the run. -/
def externals (client : Client) : List String :=
  Ordered.ascending (client.mentions.flatMap Mention.externals)

def validate (client : Client) : Except CompileError (List Diagnostic) :=
  match client.mentions.findSome? (Mention.error? client.declared) with
  | some error => .error error
  | none => .ok (client.externals.map .externalReference)

/-- The linked client, and the warnings unless a reference dangles. -/
def link (scope : Scope) (client : Client) : Client × Except CompileError (List Diagnostic) :=
  let linked := client.linkBases scope
  (linked, linked.validate)

end Client

end TypedClient
