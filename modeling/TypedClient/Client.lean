import TypedClient.Enumeration
import TypedClient.Operation
import TypedClient.TypeRef
import TypedClient.Uri

/-!
# The client of a web service

A client is a list of namespaces. Each namespace holds declarations, which are
records and enumerations, and containers, which are classes of callable
functions. A function knows what it sends (parameters, address, body, headers)
and how it reads the response.
-/

namespace TypedClient

/-- How a function reads its response. -/
inductive ReturnStrategy where
  /-- The raw body. -/
  | stream
  /-- Untyped JSON, handed on as it is. -/
  | dynamic
  /-- The body as text; an empty response is null. -/
  | text
  /-- A scalar parsed from the body. -/
  | scalar
  /-- Structured JSON of the declared type. -/
  | structured
  /-- Nothing to read. -/
  | nothing
  deriving DecidableEq, Repr

/-- The part of a request that a parameter feeds. -/
inductive Role where
  | path | query | header | body
  deriving DecidableEq, Repr

structure FormalParameter where
  name : String
  type : TypeRef
  /-- Compact name of the source type. -/
  token : String
  optional : Bool
  role : Role

structure HeaderBinding where
  header : String
  parameter : String
  optional : Bool
  deriving DecidableEq, Repr

structure Callable where
  name : String
  /-- Name of the action in the source system. -/
  sourceName : String
  verb : Verb
  params : List FormalParameter
  returns : TypeRef
  strategy : ReturnStrategy
  uri : UriTemplate
  /-- Name of the parameter that is sent as the body. -/
  body : Option String
  headers : List HeaderBinding
  doc : Option String

structure Container where
  name : String
  sourceName : String
  functions : List Callable

structure Field where
  name : String
  type : TypeRef
  required : Bool
  doc : Option String

/-- The base of a record. The target starts as a bare name and is replaced when the base turns
out to be declared in the run. -/
structure Base where
  sourceName : String
  sourceSpace : String
  target : TypeRef

structure Record where
  typeParams : List String
  fields : List Field
  base : Option Base

inductive Shape where
  | record (record : Record)
  | enumeration (enumeration : Enumeration)

structure Declaration where
  name : String
  sourceName : String
  doc : Option String
  shape : Shape

structure Namespace where
  name : String
  sourceName : String
  declarations : List Declaration := []
  containers : List Container := []

abbrev Client := List Namespace

namespace Callable

def param? (function : Callable) (name : String) : Option FormalParameter :=
  function.params.find? (·.name = name)

end Callable

namespace Client

def declarationCount (client : Client) : Nat :=
  (client.flatMap Namespace.declarations).length

def functionCount (client : Client) : Nat :=
  (client.flatMap fun space => space.containers.flatMap Container.functions).length

/-- The names under which the client declares its types. -/
def declared (client : Client) : List (String × String) :=
  client.flatMap fun space => space.declarations.map fun declaration =>
    (space.name, declaration.name)

end Client

end TypedClient
