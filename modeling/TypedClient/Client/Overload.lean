import TypedClient.Client
import TypedClient.Diagnostic
import TypedClient.Name
import TypedClient.Ordered
import TypedClient.Text.Ascii

/-!
# Telling overloads apart

The functions of a container are grouped by their names, and the members of a
group that has several all receive a longer name, made of the old one and the
names of their parameters, with the types of the parameters if asked for. A
callback in the last place does not take part. The groups that have several
members after that are reported.
-/

namespace TypedClient

namespace Callable

def callbackName : String := "callback"

/-- The parameters that tell a function from others: all but a callback in the last place. -/
def telling (params : List FormalParameter) : List FormalParameter :=
  match params.getLast? with
  | some last => if Text.eqIgnoringCase last.name callbackName then params.dropLast else params
  | none => []

def overloadPart (byType : Bool) (param : FormalParameter) : String :=
  if byType then Name.titleCase param.name ++ "Of" ++ param.token else Name.titleCase param.name

def overloadName (byType : Bool) (function : Callable) : String :=
  match telling function.params with
  | [] => function.name
  | params => function.name ++ "By" ++ "And".intercalate (params.map (overloadPart byType))

end Callable

/-- Groups of indices under names. The slot of a name tells where its group is. -/
structure NameGroups where
  slots : List (String × Nat) := []
  groups : List (List Nat) := []

namespace NameGroups

/-- Adds an index to the group of the name, which is a new one if the name has no slot. -/
def add (grouping : NameGroups) (name : String) (index : Nat) : NameGroups :=
  match grouping.slots.lookup name with
  | some slot => { grouping with groups := grouping.groups.modify slot (· ++ [index]) }
  | none =>
    { slots := (name, grouping.groups.length) :: grouping.slots
      groups := grouping.groups ++ [[index]] }

def ofNames (names : List String) : NameGroups :=
  names.zipIdx.foldl (fun grouping (name, index) => grouping.add name index) {}

end NameGroups

namespace Container

/-- The indices of the functions of each name, in order of first appearance. -/
def groupsByName (functions : List Callable) : List (List Nat) :=
  (NameGroups.ofNames (functions.map Callable.name)).groups

def renameAt (byType : Bool) (functions : List Callable) (index : Nat) : List Callable :=
  functions.modify index fun function => { function with name := function.overloadName byType }

def renameShared (byType : Bool) (functions : List Callable) : List Callable :=
  (groupsByName functions).foldl (fun renamed indices =>
    if indices.length < 2 then renamed else indices.foldl (renameAt byType) renamed) functions

def disambiguate (byType : Bool) (container : Container) : Container :=
  { container with functions := renameShared byType container.functions }

/-- The names of several functions, in order of first appearance. -/
def sharedNames (container : Container) : List String :=
  ((groupsByName container.functions).filter (1 < ·.length)).filterMap fun indices => do
    let index ← indices.head?
    let function ← container.functions[index]?
    return function.name

def overloads (container : Container) : List Diagnostic :=
  container.sharedNames.map (.unresolvedOverload container.name)

end Container

namespace Client

def mapContainers (f : Container → Container) (client : Client) : Client :=
  client.map fun space => { space with containers := space.containers.map f }

/-- The client with longer names where they are needed, and a warning for every name that is
still shared. -/
def disambiguate (byType : Bool) (client : Client) : Client × List Diagnostic :=
  let renamed := client.mapContainers (Container.disambiguate byType)
  (renamed, renamed.flatMap fun space => space.containers.flatMap Container.overloads)

end Client

end TypedClient
