import TypedClient.Rendering.Definitions
import TypedClient.Rendering.Methods

/-!
# Client files

A client is written once for each flavor, as one module. Of the configured
flavors each counts once, and the fetch client comes first.
-/

namespace TypedClient

/-- A generated file, with its path inside the output directory. -/
structure RenderedFile where
  path : String
  contents : String
  deriving DecidableEq, Repr

namespace Flavor

def fileName (flavor : Flavor) : String :=
  flavor.tag ++ "-client.ts"

/-- Each flavor of a list once, in the fixed order of flavors. -/
def selected (flavors : List Flavor) : List Flavor :=
  all.filter (· ∈ flavors)

end Flavor

namespace Client

def fileHeader : String :=
  "// Generated by typeweave. Do not edit.\n/* eslint-disable */"

def classOf (config : Config) (flavor : Flavor) (container : Container) : TypeScript.Class :=
  { name := container.name
    doc := none
    constructorParams := flavor.constructorParams
    methods := container.functions.map (Callable.method config flavor) }

def moduleSpace (config : Config) (flavor : Flavor) (space : Namespace) :
    TypeScript.Namespace :=
  { name := space.name
    types := space.declarations.map .ofDeclaration
    classes := space.containers.map (classOf config flavor) }

def toModule (config : Config) (flavor : Flavor) (client : Client) : TypeScript.Module :=
  { header := fileHeader
    preamble := flavor.preamble
    namespaces := client.map (moduleSpace config flavor) }

def render (config : Config) (flavor : Flavor) (client : Client) : RenderedFile :=
  { path := flavor.fileName, contents := (client.toModule config flavor).print }

def renderAll (config : Config) (client : Client) : List RenderedFile :=
  (Flavor.selected config.flavors).map (client.render config)

end Client

end TypedClient
