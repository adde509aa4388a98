import TypedClient.Name
import TypedClient.SourceType

/-!
# Framework types with a fixed meaning

Some types of the host framework are never declared on the client: whole
responses and streams, untyped values, and the empty result. They are
recognised by qualified name, whatever their number of type parameters. A
response type that wraps exactly one argument stands for that argument.
-/

namespace TypedClient

inductive WellKnown where
  /-- Whole responses, files and streams. -/
  | rawResponse
  /-- Values without a declared shape. -/
  | looseObject
  /-- A typed response wrapper, of which only the argument matters. -/
  | wrapper
  | void
  deriving DecidableEq, Repr

namespace WellKnown

def table : List (String × WellKnown) := [
  ("Microsoft.AspNetCore.Mvc.IActionResult", rawResponse),
  ("Microsoft.AspNetCore.Mvc.ActionResult", rawResponse),
  ("Microsoft.AspNetCore.Mvc.FileResult", rawResponse),
  ("Microsoft.AspNetCore.Http.IResult", rawResponse),
  ("System.Web.Http.IHttpActionResult", rawResponse),
  ("System.Net.Http.HttpResponseMessage", rawResponse),
  ("System.IO.Stream", rawResponse),
  ("System.Object", looseObject),
  ("System.Dynamic.ExpandoObject", looseObject),
  ("Newtonsoft.Json.Linq.JObject", looseObject),
  ("Newtonsoft.Json.Linq.JToken", looseObject),
  ("System.Text.Json.JsonElement", looseObject),
  ("System.Text.Json.Nodes.JsonNode", looseObject),
  ("System.Void", void)]

def ofName? (qualified : String) : Option WellKnown :=
  table.lookup (Name.stripArity qualified)

/-- The meaning of a type with the given name and kind. -/
def of? (qualified : String) (kind : TypeKind) : Option WellKnown :=
  match ofName? qualified, kind with
  | some rawResponse, .generic _ [_] => some wrapper
  | found, _ => found

end WellKnown

def SourceType.wellKnown? (type : SourceType) : Option WellKnown :=
  WellKnown.of? type.name type.kind

end TypedClient
