import TypedClient.SourceType
import TypedClient.Text.Ascii

/-!
# Remote operations

An operation is one action of a web service: a request method, a route, the
parameters with the part of the request each one is bound to, and the declared
response. Methods and binding sources are recognised without regard to case,
and spellings outside the known set are kept so that they can be reported.
-/

namespace TypedClient

/-- Request method. -/
inductive Verb where
  | get | post | put | patch | delete | head | options
  | other (name : String)
  deriving DecidableEq, Repr

/-- The part of a request that supplies a parameter. -/
inductive BindingSource where
  | path | query | body | header | unbound
  | unknown (name : String)
  deriving DecidableEq, Repr

structure Parameter where
  name : String
  type : SourceType
  source : BindingSource := .unbound
  /-- The parameter has a default value and may be left out. -/
  optional : Bool := false

structure Operation where
  name : String
  /-- Qualified name of the type that owns the action. -/
  container : String
  verb : Verb
  route : String
  parameters : List Parameter := []
  /-- Absent if the action returns nothing. -/
  response : Option SourceType := none
  docKey : Option String := none

namespace Verb

def known : List (String × Verb) := [
  ("GET", get), ("POST", post), ("PUT", put), ("PATCH", patch),
  ("DELETE", delete), ("HEAD", head), ("OPTIONS", options)]

def ofName (name : String) : Verb :=
  (known.lookup (Text.uppercaseAscii name)).getD (other name)

def name : Verb → String
  | get => "GET"
  | post => "POST"
  | put => "PUT"
  | patch => "PATCH"
  | delete => "DELETE"
  | head => "HEAD"
  | options => "OPTIONS"
  | other name => name

def isSupported : Verb → Bool
  | other _ => false
  | _ => true

end Verb

namespace BindingSource

def known : List (String × BindingSource) := [
  ("path", path), ("route", path), ("query", query), ("body", body), ("header", header),
  ("", unbound), ("unbound", unbound), ("none", unbound)]

def ofName (name : String) : BindingSource :=
  (known.lookup (Text.lowercaseAscii name)).getD (unknown name)

def name : BindingSource → String
  | path => "path"
  | query => "query"
  | body => "body"
  | header => "header"
  | unbound => "unbound"
  | unknown name => name

def isUnknown : BindingSource → Bool
  | unknown _ => true
  | _ => false

end BindingSource

/-- What a host framework exports: its types and its operations. -/
structure Metadata where
  types : List SourceType := []
  operations : List Operation := []

end TypedClient
