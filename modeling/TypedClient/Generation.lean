import TypedClient.Callable.Compile
import TypedClient.Client.Assembly
import TypedClient.Client.Linking
import TypedClient.Client.Overload

/-!
# One run

A run declares the types of a metadata document, compiles its operations, links
the result and tells overloads apart. It ends with the first error, or with a
client and the warnings of all steps in their order.
-/

namespace TypedClient

structure Generation where
  client : Client
  diagnostics : List Diagnostic

namespace Generation

def place (config : Config) (operation : Operation) (function : Callable) : Placed :=
  { space := Name.namespaceOf operation.container
    container := Name.containerBase operation.container ++ config.containerSuffix
    sourceContainer := operation.container
    function }

/-- The functions and the warnings of some operations, up to the first error. -/
def compileAll (scope : Scope) (docs : DocSource) :
    List Operation → Except CompileError (List Placed × List Diagnostic)
  | [] => .ok ([], [])
  | operation :: operations => do
    let outcome ← operation.compile scope docs
    let (placed, skipped) ← compileAll scope docs operations
    match outcome with
    | .compiled function => return (place scope.config operation function :: placed, skipped)
    | .skipped diagnostic => return (placed, diagnostic :: skipped)

def scopeOf (config : Config) (types : List SourceType) : Scope :=
  { registry := .ofList (SourceType.pending types), config }

/-- A run that exposes the members a filter lets pass. -/
def runWith (filter : MemberFilter) (config : Config) (docs : DocSource) (metadata : Metadata) :
    Except CompileError Generation := do
  let scope := scopeOf config metadata.types
  let (functions, skipped) ← compileAll scope docs metadata.operations
  let declarations := Client.declarations scope filter docs (SourceType.pending metadata.types)
  let (linked, externals) := (Client.build config declarations functions).link scope
  let externals ← externals
  let (client, overloads) := linked.disambiguate config.disambiguateByType
  return { client
           diagnostics := SourceType.undeclared metadata.types ++ skipped ++ externals ++ overloads }

def run (config : Config) (docs : DocSource) (metadata : Metadata) : Except CompileError Generation :=
  runWith config.cherryPick.filter config docs metadata

end Generation

end TypedClient
