import TypedClient.Client.Linking
import TypedClient.Proofs.Address
import TypedClient.Proofs.TypeRef.Nesting

/-!
# Where a client holds references

The references of a client stand at addresses. The first number selects a
namespace. In it, declarations lie below 0 and containers below 1; in a record,
the base lies below 0 and the fields below 1; in a function, the response lies
below 0 and the parameters below 1. The rest of an address selects a node of the
reference by the children it lies in. The order of addresses is the order in
which linking looks at the references.
-/

namespace TypedClient

open Address

namespace TypeRef

/-- The node at an address inside a reference. -/
def at? : TypeRef → Address → Option TypeRef
  | type, [] => some type
  | type, position :: rest => type.children[position]?.bind fun child ↦ child.at? rest

theorem at?_eq_rooted (type : TypeRef) :
    type.at? = rooted type (below type.children at?) := by
  funext address
  cases address <;> rfl

theorem enumerates_nodes (type : TypeRef) : Enumerates type.nodes type.at? := by
  induction type using inductionOnChildren with
  | step type ih =>
    rw [nodes_eq, at?_eq_rooted]
    exact (Enumerates.below ih).rooted rfl

end TypeRef

namespace Mention

/-- A node of the reference, with the place of the whole. -/
def at? (mention : Mention) (address : Address) : Option Mention :=
  (mention.type.at? address).map (Mention.mk mention.context)

def nodes (mention : Mention) : List Mention :=
  mention.type.nodes.map (Mention.mk mention.context)

theorem enumerates_nodes (mention : Mention) : Enumerates mention.nodes mention.at? :=
  mention.type.enumerates_nodes.map _

end Mention

namespace Client

def recordAt? (owner : String) (record : Record) : Address → Option Mention :=
  branch
    (below record.base.toList fun base ↦ (Mention.mk (owner ++ " (base)") base.target).at?)
    (below record.fields fun field ↦ (Mention.mk (owner ++ "." ++ field.name) field.type).at?)

def functionAt? (owner : String) (function : Callable) : Address → Option Mention :=
  branch
    (Mention.mk (owner ++ " (return)") function.returns).at?
    (below function.params fun param ↦
      (Mention.mk (owner ++ "(" ++ param.name ++ ")") param.type).at?)

def declarationAt? (space : String) (declaration : Declaration) : Address → Option Mention :=
  match declaration.shape with
  | .record record => recordAt? (space ++ "." ++ declaration.name) record
  | .enumeration _ => fun _ ↦ none

def containerAt? (space : String) (container : Container) : Address → Option Mention :=
  below container.functions fun function ↦
    functionAt? (space ++ "." ++ container.name ++ "." ++ function.name) function

def namespaceAt? (space : Namespace) : Address → Option Mention :=
  branch (below space.declarations (declarationAt? space.name))
    (below space.containers (containerAt? space.name))

/-- The node of a reference that stands at an address of the client. -/
def at? (client : Client) : Address → Option Mention :=
  below client namespaceAt?

theorem enumerates_record (owner : String) (record : Record) :
    Enumerates ((recordMentions owner record).flatMap Mention.nodes) (recordAt? owner record) := by
  have hbase := Enumerates.below fun base (_ : base ∈ record.base.toList) ↦
    (Mention.mk (owner ++ " (base)") base.target).enumerates_nodes
  have hfields := Enumerates.below fun field (_ : field ∈ record.fields) ↦
    (Mention.mk (owner ++ "." ++ field.name) field.type).enumerates_nodes
  rw [recordMentions, List.flatMap_append, List.flatMap_map]
  cases hrecord : record.base with
  | none => simpa [recordAt?, hrecord] using hbase.branch hfields
  | some base => simpa [recordAt?, hrecord] using hbase.branch hfields

theorem enumerates_function (owner : String) (function : Callable) :
    Enumerates ((functionMentions owner function).flatMap Mention.nodes)
      (functionAt? owner function) := by
  rw [functionMentions, List.flatMap_cons, List.flatMap_map]
  exact (Mention.enumerates_nodes _).branch (Enumerates.below fun param _ ↦
    (Mention.mk (owner ++ "(" ++ param.name ++ ")") param.type).enumerates_nodes)

theorem enumerates_declaration (space : String) (declaration : Declaration) :
    Enumerates ((declarationMentions space declaration).flatMap Mention.nodes)
      (declarationAt? space declaration) := by
  unfold declarationMentions declarationAt?
  cases declaration.shape with
  | record record => exact enumerates_record _ record
  | enumeration _ => exact Enumerates.nil

theorem enumerates_container (space : String) (container : Container) :
    Enumerates ((containerMentions space container).flatMap Mention.nodes)
      (containerAt? space container) := by
  rw [containerMentions, List.flatMap_assoc]
  exact Enumerates.below fun function _ ↦ enumerates_function _ function

/-- The mentions of a client, node by node, are what stands at its addresses, in their order. -/
theorem enumerates_mentions (client : Client) :
    Enumerates (client.mentions.flatMap Mention.nodes) client.at? := by
  rw [mentions, List.flatMap_assoc]
  apply Enumerates.below
  intro space _
  rw [List.flatMap_append, List.flatMap_assoc, List.flatMap_assoc]
  exact (Enumerates.below fun declaration _ ↦ enumerates_declaration _ declaration).branch
    (Enumerates.below fun container _ ↦ enumerates_container _ container)

end Client

end TypedClient
