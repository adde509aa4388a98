import TypedClient.Client
import TypedClient.Declarable
import TypedClient.Docs
import TypedClient.Scope

/-!
# Putting a client together

Declarations are made from pending types, one by one, and gathered under their
client namespaces. Compiled functions are gathered in containers, which are
ordered by source namespace and name, and the containers are then placed in the
client namespace that their source namespace becomes. Namespaces are in ascending
order of their names, and so are the declarations and the containers inside one;
functions keep the order of their operations.
-/

namespace TypedClient

namespace SourceType

def fieldOf (scope : Scope) (docs : DocSource) (owner : String) (member : Member) : Field :=
  { name := member.name
    type := scope.resolve member.type
    required := member.required
    doc := docs.find? member.docKey (Docs.memberKey owner member.name) }

def baseOf (scope : Scope) (type : SourceType) : Base :=
  { sourceName := type.name
    sourceSpace := type.space
    target := .named none (Name.stripArity type.name) (type.args.map scope.resolve) }

def recordOf (scope : Scope) (filter : MemberFilter) (docs : DocSource) (type : SourceType) : Record :=
  { typeParams := type.typeParams
    fields := (type.members.filter (filter type)).map (fieldOf scope docs type.name)
    base := type.base.map (baseOf scope) }

def enumerationOf (docs : DocSource) (type : SourceType) : Enumeration :=
  .compact (type.constants.map fun constant =>
    (constant.name, constant.value,
      docs.find? constant.docKey (Docs.constantKey type.name constant.name)))

def declarationOf (scope : Scope) (filter : MemberFilter) (docs : DocSource) (type : SourceType)
    (kind : DeclarableAs) : Declaration :=
  { name := Name.short type.name type.space
    sourceName := type.name
    doc := docs.find? type.docKey (Docs.typeKey type.name)
    shape := match kind with
      | .record => .record (recordOf scope filter docs type)
      | .enumeration => .enumeration (enumerationOf docs type) }

/-- The declaration of a type, if it can be declared. -/
def declare? (scope : Scope) (filter : MemberFilter) (docs : DocSource) (type : SourceType) :
    Option (String × Declaration) :=
  match type.classify with
  | .ok kind => some (type.space, declarationOf scope filter docs type kind)
  | .error _ => none

end SourceType

/-- A function with the container it belongs to. -/
structure Placed where
  space : String
  container : String
  sourceContainer : String
  function : Callable

/-- What containers are ordered by until they are placed: source namespace, then name. -/
@[ext]
structure ContainerKey where
  space : String
  name : String
  deriving DecidableEq

namespace ContainerKey

instance : LT ContainerKey where
  lt left right := left.space < right.space ∨ left.space = right.space ∧ left.name < right.name

instance : DecidableLT ContainerKey :=
  fun left right => inferInstanceAs (Decidable
    (left.space < right.space ∨ left.space = right.space ∧ left.name < right.name))

end ContainerKey

def Placed.key (placed : Placed) : ContainerKey :=
  { space := placed.space, name := placed.container }

namespace Container

/-- The container of a function, with no function in it. -/
def ofPlaced (placed : Placed) : Container :=
  { name := placed.container, sourceName := placed.sourceContainer, functions := [] }

def addFunction (function : Callable) (container : Container) : Container :=
  { container with functions := container.functions ++ [function] }

end Container

namespace Namespace

/-- What a source namespace becomes, with nothing in it. -/
def ofSource (config : Config) (space : String) : Namespace :=
  { name := config.targetSpace space, sourceName := space }

def addDeclaration (declaration : Declaration) (group : Namespace) : Namespace :=
  { group with declarations := group.declarations ++ [declaration] }

def addContainer (container : Container) (group : Namespace) : Namespace :=
  { group with containers := group.containers ++ [container] }

def sortDeclarations (group : Namespace) : Namespace :=
  { group with declarations := Ordered.sortBy Declaration.name group.declarations }

end Namespace

namespace Client

/-- The namespaces of some declarations, each of which comes with its source namespace. -/
def declarationGroups (config : Config) (declarations : List (String × Declaration)) : Client :=
  (Ordered.gather (config.targetSpace ·.1) (Namespace.ofSource config ·.1)
    (Namespace.addDeclaration ·.2) declarations).map fun (_, group) => group.sortDeclarations

def containersByKey (functions : List Placed) : List (ContainerKey × Container) :=
  Ordered.gather Placed.key Container.ofPlaced (Container.addFunction ·.function) functions

/-- Puts a container into the first namespace that has the name its source namespace becomes, or
into a new one at the end. -/
def placeContainer (config : Config) (space : String) (container : Container) : Client → Client
  | [] => [(Namespace.ofSource config space).addContainer container]
  | group :: groups =>
    if group.name = config.targetSpace space then group.addContainer container :: groups
    else group :: placeContainer config space container groups

/-- Distributes declarations and functions, each with its source namespace. -/
def build (config : Config) (declarations : List (String × Declaration))
    (functions : List Placed) : Client :=
  Ordered.sortBy Namespace.name
    ((containersByKey functions).foldl
      (fun client (key, container) => placeContainer config key.space container client)
      (declarationGroups config declarations))

def declarations (scope : Scope) (filter : MemberFilter) (docs : DocSource)
    (types : List SourceType) : List (String × Declaration) :=
  types.filterMap (SourceType.declare? scope filter docs)

/-- The client of some types alone; the bases of records are not linked yet. -/
def assemble (scope : Scope) (filter : MemberFilter) (docs : DocSource) (types : List SourceType) :
    Client :=
  declarationGroups scope.config (declarations scope filter docs types)

end Client

end TypedClient
