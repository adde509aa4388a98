import TypedClient.Config
import TypedClient.Decimal.Positional
import TypedClient.Decimal.Shortest
import TypedClient.LoadError
import TypedClient.Toml.Reader

/-!
# Configuration files

A configuration is a TOML document with one key for each setting. The document
is read as a whole first; then its entries are looked at in their order, and
the first unknown key or unfit value is the error. A policy that is not given
by its name is an error without a message of its own.
-/

namespace TypedClient

namespace Toml

/-- A real number as a message shows it. -/
def realText (value : Float) : String :=
  match Decimal.ofBits? value.toBits with
  | some decimal => decimal.positional
  | none => if value.isNaN then "NaN" else if value < 0 then "-inf" else "inf"

def found : Toml → Json.Found
  | string value => .string value
  | integer value => .integer value
  | real value => .real (realText value)
  | bool value => .bool value
  | array _ | tables _ _ => .list
  | moment _ | table _ _ => .object

def mismatch {α : Type} (expected : String) (value : Toml) : Except ParseError α :=
  .error (.shape (.invalidType value.found expected))

def asString : Toml → Except ParseError String
  | string value => .ok value
  | value => mismatch "a string" value

def asBool : Toml → Except ParseError Bool
  | bool value => .ok value
  | value => mismatch "a boolean" value

def asList {α : Type} (decode : Toml → Except ParseError α) : Toml → Except ParseError (List α)
  | array items => items.mapM decode
  | tables earlier last => (earlier ++ [last]).mapM fun entries => decode (table .headed entries)
  | value => mismatch "a sequence" value

def variant {α : Type} (all : List α) (tag : α → String) (name : String) : Except ParseError α :=
  match all.find? (tag · = name) with
  | some value => .ok value
  | none => .error (.shape (.unknownVariant name (all.map tag)))

/-- One of some names, as a string or as the only key of a table with an empty value. -/
def asOneOf {α : Type} (all : List α) (tag : α → String) : Toml → Except ParseError α
  | string name => variant all tag name
  | table _ [(name, contents)] => do
    let chosen ← variant all tag name
    if contents.isEmpty then return chosen else .error .malformed
  | _ => .error .malformed

end Toml

namespace Config

open Toml (asString asBool asList asOneOf)

def keys : List String :=
  ["namespace-suffix", "container-suffix", "cherry-pick", "sequence-to-array",
    "disambiguate-by-type", "body-serialization", "output-flavors"]

/-- The configuration with one setting changed. -/
def assign (config : Config) (entry : String × Toml) : Except ParseError Config :=
  match entry with
  | ("namespace-suffix", value) => do return { config with namespaceSuffix := ← asString value }
  | ("container-suffix", value) => do return { config with containerSuffix := ← asString value }
  | ("cherry-pick", value) => do
    return { config with cherryPick := ← asOneOf CherryPick.policies CherryPick.tag value }
  | ("sequence-to-array", value) => do return { config with sequenceToArray := ← asBool value }
  | ("disambiguate-by-type", value) => do
    return { config with disambiguateByType := ← asBool value }
  | ("body-serialization", value) => do
    return { config with
      bodySerialization := ← asOneOf BodySerialization.all BodySerialization.tag value }
  | ("output-flavors", value) => do
    return { config with flavors := ← asList (asOneOf Flavor.all Flavor.tag) value }
  | (key, _) => .error (.shape (.unknownField key keys))

def ofEntries (entries : List (String × Toml)) : Except ParseError Config :=
  entries.foldlM assign {}

def ofText (text : String) : Except LoadError Config :=
  (match Toml.read text with
    | some entries => ofEntries entries
    | none => .error .malformed).mapError fun error => ⟨.config, error⟩

end Config

end TypedClient
