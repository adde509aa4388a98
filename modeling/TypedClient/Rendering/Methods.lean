import TypedClient.Rendering.Transport
import TypedClient.Rendering.Types
import TypedClient.TypeScript.Identifier
import TypedClient.TypeScript.Printer

/-!
# Methods

A callable function becomes a method that writes the address, collects headers
and body, sends the request and reads the response. Parameters keep their
order; an optional one is marked with a question mark if only optional ones
follow, and admits `undefined` otherwise. Optional query entries and headers
are written only if their argument is neither undefined nor null.
-/

namespace TypedClient

open TypeScript (Ty Expr Stmt Param Method TemplatePiece ObjectEntry)

namespace TypeScript

/-- Names that the body of a method declares. -/
def methodLocals : List String :=
  ["url", "res", "query", "search", "headers", "item"]

/-- The name of a parameter inside its method. -/
def localName (name : String) : String :=
  if identifier name ∈ methodLocals then identifier name ++ "_" else identifier name

def Param.ofFormal (trailing : Bool) (param : FormalParameter) : Param :=
  { name := localName param.name
    type := if param.optional && !trailing then (Ty.ofRef param.type).orUndefined
      else .ofRef param.type
    optional := param.optional && trailing }

/-- The parameters of a method, of which the last optional ones may be left out. -/
def Param.ofFormals : List FormalParameter → List Param
  | [] => []
  | param :: params =>
    .ofFormal (param.optional && params.all FormalParameter.optional) param :: ofFormals params

end TypeScript

open TypeScript (localName)

namespace Callable

def isOptional (function : Callable) (parameter : String) : Bool :=
  (function.param? parameter).any FormalParameter.optional

/-- The argument is there. -/
def presence (ident : String) : Expr :=
  .code (ident ++ " !== undefined && " ++ ident ++ " !== null")

def asString (ident : String) : Expr :=
  .call (.ident "String") [.ident ident]

/-- A parameter in a path. A catch-all keeps its slashes. -/
def encodedSegment (value : String) (catchAll : Bool) : Expr :=
  if catchAll then
    .code ("String(" ++ value ++ ").split(\"/\").map(encodeURIComponent).join(\"/\")")
  else .code ("encodeURIComponent(String(" ++ value ++ "))")

def segmentPiece (function : Callable) : UriSegment → TemplatePiece
  | .literal text => .text text
  | .parameter name catchAll =>
    let ident := localName name
    .substitution (encodedSegment
      (if function.isOptional name then ident ++ " ?? \"\"" else ident) catchAll)

def searchPiece : TemplatePiece :=
  .substitution (.code "search ? \x60?$\x7bsearch\x7d\x60 : \"\"")

def urlTemplate (function : Callable) : Expr :=
  .template (.substitution (.member (.ident "this") "baseUrl") ::
    function.uri.segments.map function.segmentPiece ++
    if function.uri.query = [] then [] else [searchPiece])

def queryStatement (entry : QueryEntry) : Stmt :=
  let ident := localName entry.parameter
  let key := Expr.string entry.key
  if entry.repeated then
    .code ("for (const item of " ++ (if entry.optional then ident ++ " ?? []" else ident) ++
      ") \x7b\n  query.append(" ++ key.print ++ ", String(item));\n\x7d")
  else
    let set := Stmt.expr (.invoke (.ident "query") "set" [key, asString ident])
    if entry.optional then .when (presence ident) [set] else set

def queryStatements (entries : List QueryEntry) : List Stmt :=
  if entries = [] then []
  else
    .declare .const "query" (.code "new URLSearchParams()") :: entries.map queryStatement ++
      [.declare .const "search" (.invoke (.ident "query") "toString" [])]

def urlStatements (function : Callable) : List Stmt :=
  queryStatements function.uri.query ++ [.declare .const "url" function.urlTemplate]

/-- The header may be missing. -/
def isConditional (function : Callable) (header : HeaderBinding) : Bool :=
  header.optional || function.isOptional header.parameter

def headerEntry (header : HeaderBinding) : ObjectEntry :=
  .property header.header (asString (localName header.parameter))

def conditionalHeader (header : HeaderBinding) : Stmt :=
  let ident := localName header.parameter
  .when (presence ident) [.code ("headers[" ++ (Expr.string header.header).print ++ "] = " ++
    (asString ident).print ++ ";")]

def headerStatements (function : Callable) (contentType : Option String) : List Stmt :=
  let (conditional, always) := function.headers.partition function.isConditional
  .declare .const "headers: Record<string, string>" (.object
    (contentType.toList.map (fun type => .property "Content-Type" (.string type)) ++
      always.map headerEntry)) ::
    conditional.map conditionalHeader

def hasHeaders (function : Callable) : Bool :=
  !function.headers.isEmpty || function.body.isSome

/-- The serialised body and its content type. -/
def encodedBody (config : Config) (function : Callable) : Option (Expr × String) :=
  function.body.map fun name => config.bodySerialization.encode (.ident (localName name))

def statements (config : Config) (flavor : Flavor) (function : Callable) : List Stmt :=
  let body := function.encodedBody config
  function.urlStatements ++
    (if function.hasHeaders then function.headerStatements (body.map Prod.snd) else []) ++
    flavor.send
      { method := function.verb.name, hasHeaders := function.hasHeaders, body := body.map Prod.fst }
      function.strategy ++
    flavor.readBack function.strategy (.ofReturn function.strategy function.returns)

def routeText (function : Callable) : String :=
  function.verb.name ++ " " ++ function.uri.display

def docText (function : Callable) : String :=
  match function.doc with
  | some doc => doc ++ "\n\n" ++ function.routeText
  | none => function.routeText

def method (config : Config) (flavor : Flavor) (function : Callable) : Method :=
  { name := TypeScript.camelCase function.name
    doc := some function.docText
    params := Param.ofFormals function.params
    returns := (Ty.ofReturn function.strategy function.returns).promise
    body := function.statements config flavor
    isAsync := true }

end Callable

end TypedClient
