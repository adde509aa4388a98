import TypedClient.Name
import TypedClient.SourceType
import TypedClient.Text.Ascii

/-!
# Compact type names

Functions that share a name can be told apart by the types of their parameters.
The token of a type is a name made of ASCII letters and digits for this use:
`Int32`, `Int32Array`, `ListOfString`, `PairOfInt32AndGuid`. Nullable and
deferred layers do not show.
-/

namespace TypedClient.SourceType

/-- The letters and digits of the short name. -/
def tokenHead (name space : String) : String :=
  String.ofList ((Name.short name space).toList.filter Text.isAsciiAlphanumeric)

/-- The token of a generic type with the given head, from the tokens of its arguments. -/
def tokenOfArgs (head : String) (family : GenericFamily) (tokens : List String) : String :=
  match family, tokens with
  | .nullable, [inner] => inner
  | .deferred, [inner] => inner
  | _, [] => head
  | _, tokens => head ++ "Of" ++ "And".intercalate tokens

mutual

def token : SourceType → String
  | { name, space, kind, .. } => kindToken name space kind

def kindToken (name space : String) : TypeKind → String
  | .array _ element => token element ++ "Array"
  | .generic family args => tokenOfArgs (tokenHead name space) family (tokens args)
  | _ => tokenHead name space

def tokens : List SourceType → List String
  | [] => []
  | type :: types => token type :: tokens types

end

@[simp]
theorem tokens_eq_map (types : List SourceType) : tokens types = types.map token := by
  induction types with
  | nil => rfl
  | cons type types ih => simp [tokens, ih]

end TypedClient.SourceType
