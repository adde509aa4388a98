import TypedClient.SourceType

/-!
# Configuration of a run

A configuration says how client names are formed, which members of a record are
exposed, how sequences and overloads are treated, and which clients are
written. Every setting has a default.
-/

namespace TypedClient

/-- Which members of a record are exposed. -/
inductive CherryPick where
  | all
  | shown
  | shownNotIgnored
  deriving DecidableEq, Repr

/-- How a request body is written. -/
inductive BodySerialization where
  | json
  | formUrlEncoded
  deriving DecidableEq, Repr

/-- The library a generated client sends its requests with. -/
inductive Flavor where
  | fetch
  | axios
  deriving DecidableEq, Repr

namespace CherryPick

def policies : List CherryPick :=
  [all, shown, shownNotIgnored]

def tag : CherryPick → String
  | all => "all"
  | shown => "public"
  | shownNotIgnored => "public-not-ignored"

def includes (pick : CherryPick) (member : Member) : Bool :=
  match pick with
  | all => true
  | shown => member.visibility == .shown
  | shownNotIgnored => member.visibility == .shown && !member.ignored

end CherryPick

namespace BodySerialization

def all : List BodySerialization :=
  [json, formUrlEncoded]

def tag : BodySerialization → String
  | json => "json"
  | formUrlEncoded => "form-url-encoded"

end BodySerialization

namespace Flavor

def all : List Flavor :=
  [fetch, axios]

def tag : Flavor → String
  | fetch => "fetch"
  | axios => "axios"

end Flavor

structure Config where
  /-- Appended to the namespaces of the source system. -/
  namespaceSuffix : String := ".Client"
  /-- Appended to the short names of controllers. -/
  containerSuffix : String := "Client"
  cherryPick : CherryPick := .shownNotIgnored
  /-- Sequences become arrays. -/
  sequenceToArray : Bool := true
  /-- Overloads are told apart by the types of their parameters as well. -/
  disambiguateByType : Bool := false
  bodySerialization : BodySerialization := .json
  flavors : List Flavor := [.fetch]
  deriving DecidableEq

namespace Config

/-- The client namespace of a source namespace. Without a source namespace it is the suffix
alone, which then does not start with a dot. -/
def targetSpace (config : Config) (space : String) : String :=
  if space = "" then String.ofList (config.namespaceSuffix.toList.dropWhile (· == '.'))
  else space ++ config.namespaceSuffix

end Config

/-- Decides whether a record exposes a member. -/
abbrev MemberFilter := SourceType → Member → Bool

def CherryPick.filter (pick : CherryPick) : MemberFilter :=
  fun _ member => pick.includes member

end TypedClient
