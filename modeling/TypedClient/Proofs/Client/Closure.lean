import TypedClient.Proofs.Client.Linking
import TypedClient.Proofs.Client.NameGroups

/-!
# Clients in which nothing dangles

A client is closed when its declarations and its functions refer to declared
names only. Linking the bases keeps the names that are declared and all
functions. Longer names for overloads change neither the declarations nor what
a function refers to, so a closed client stays closed.
-/

namespace TypedClient

namespace TypeRef

theorem dangling?_eq_none_iff {declared : List (String × String)} {type : TypeRef} :
    type.dangling? declared = none ↔ ∀ target, type.target? = some target → target ∈ declared := by
  cases type with
  | named space name args => cases space <;> simp [dangling?, target?]
  | _ => simp [dangling?, target?]

end TypeRef

theorem Mention.error?_eq_none_iff {declared : List (String × String)} {mention : Mention} :
    mention.error? declared = none ↔ mention.type.targets ⊆ declared := by
  rw [error?, Option.map_eq_none_iff, List.findSome?_eq_none_iff]
  simp only [TypeRef.dangling?_eq_none_iff]
  constructor
  · intro hnodes target htarget
    obtain ⟨node, hnode, hat⟩ := List.mem_filterMap.1 htarget
    exact hnodes node hnode target hat
  · intro htargets node hnode target hat
    exact htargets (List.mem_filterMap.2 ⟨node, hnode, hat⟩)

/-! ## What declarations and functions refer to -/

def Declaration.references (declaration : Declaration) : List TypeRef :=
  match declaration.shape with
  | .record record => (record.base.map Base.target).toList ++ record.fields.map Field.type
  | .enumeration _ => []

theorem Declaration.name_link (scope : Scope) (declaration : Declaration) :
    (declaration.link scope).name = declaration.name := by
  unfold link
  split <;> rfl

theorem Declaration.sourceName_link (scope : Scope) (declaration : Declaration) :
    (declaration.link scope).sourceName = declaration.sourceName := by
  unfold link
  split <;> rfl

def Callable.references (function : Callable) : List TypeRef :=
  function.returns :: function.params.map FormalParameter.type

namespace Client

variable {client : Client} {scope : Scope}

/-- The function belongs to one of the containers. -/
def Holds (client : Client) (function : Callable) : Prop :=
  ∃ group ∈ client, ∃ container ∈ group.containers, function ∈ container.functions

theorem map_type_declarationMentions (space : String) (declaration : Declaration) :
    (declarationMentions space declaration).map Mention.type = declaration.references := by
  unfold declarationMentions Declaration.references
  cases declaration.shape with
  | record record =>
    cases hbase : record.base with
    | none => simp [recordMentions, hbase]
    | some base => simp [recordMentions, hbase]
  | enumeration _ => rfl

theorem map_type_functionMentions (owner : String) (function : Callable) :
    (functionMentions owner function).map Mention.type = function.references := by
  simp [functionMentions, Callable.references]

theorem mem_map_type_mentions {type : TypeRef} : type ∈ client.mentions.map Mention.type ↔
    (∃ space declaration, client.Declares space declaration ∧ type ∈ declaration.references) ∨
      ∃ function, client.Holds function ∧ type ∈ function.references := by
  simp only [mentions, containerMentions, List.map_flatMap, List.map_append,
    map_type_declarationMentions, map_type_functionMentions, List.mem_flatMap, List.mem_append]
  constructor
  · intro hexists
    obtain ⟨group, hgroup, hplace⟩ := hexists
    rcases hplace with ⟨declaration, hmem, htype⟩ | ⟨container, hmem, function, hfunction, htype⟩
    · exact .inl ⟨group.name, declaration, ⟨group, hgroup, rfl, hmem⟩, htype⟩
    · exact .inr ⟨function, ⟨group, hgroup, container, hmem, hfunction⟩, htype⟩
  · intro hplace
    rcases hplace with ⟨_, declaration, ⟨group, hgroup, rfl, hmem⟩, htype⟩ |
      ⟨function, ⟨group, hgroup, container, hmem, hfunction⟩, htype⟩
    · exact ⟨group, hgroup, .inl ⟨declaration, hmem, htype⟩⟩
    · exact ⟨group, hgroup, .inr ⟨container, hmem, function, hfunction, htype⟩⟩

theorem closed_iff_mentions :
    client.Closed ↔ ∀ mention ∈ client.mentions, mention.type.targets ⊆ client.declared := by
  have hvalidate : client.validate = .ok (client.externals.map .externalReference) ↔
      client.Closed := validate_eq_ok_iff.trans (and_iff_left rfl)
  simp only [← hvalidate, ← Mention.error?_eq_none_iff, ← List.findSome?_eq_none_iff, validate]
  cases client.mentions.findSome? (Mention.error? client.declared) <;> simp

/-- Closed clients refer to what they declare, in declarations and in functions. -/
theorem closed_iff : client.Closed ↔
    (∀ space declaration, client.Declares space declaration →
      ∀ type ∈ declaration.references, type.targets ⊆ client.declared) ∧
    ∀ function, client.Holds function →
      ∀ type ∈ function.references, type.targets ⊆ client.declared := by
  have hmentions : client.Closed ↔
      ∀ type ∈ client.mentions.map Mention.type, type.targets ⊆ client.declared := by
    rw [closed_iff_mentions, List.forall_mem_map]
  simp only [hmentions, mem_map_type_mentions]
  constructor
  · intro hall
    exact ⟨fun space declaration hdeclares type htype ↦
        hall type (.inl ⟨space, declaration, hdeclares, htype⟩),
      fun function hholds type htype ↦ hall type (.inr ⟨function, hholds, htype⟩)⟩
  · intro hparts type hplace
    obtain ⟨hdeclarations, hfunctions⟩ := hparts
    rcases hplace with ⟨space, declaration, hdeclares, htype⟩ | ⟨function, hholds, htype⟩
    · exact hdeclarations space declaration hdeclares type htype
    · exact hfunctions function hholds type htype

/-! ## Assembled functions -/

/-- Assembling loses no function and adds none. -/
theorem holds_build {config : Config} {declarations : List (String × Declaration)}
    {functions : List Placed} {function : Callable} :
    (build config declarations functions).Holds function ↔
      ∃ placed ∈ functions, placed.function = function := by
  simp only [Holds, build_eq, Ordered.mem_sortBy, List.mem_map]
  constructor
  · intro hexists
    obtain ⟨_, ⟨space, -, rfl⟩, container, hcontainer, hfunction⟩ := hexists
    obtain ⟨first, -, rfl⟩ := List.mem_map.1 hcontainer
    obtain ⟨placed, hplaced, rfl⟩ := List.mem_map.1 hfunction
    exact ⟨placed, List.mem_of_mem_filter (List.mem_of_mem_filter hplaced), rfl⟩
  · intro hexists
    obtain ⟨placed, hplaced, rfl⟩ := hexists
    have hspace : placed.space ∈ spaces declarations functions :=
      Ordered.mem_ascending.2 (List.mem_append_right _ (List.mem_map_of_mem hplaced))
    have hlocal : placed ∈ functions.filter (·.space = placed.space) :=
      List.mem_filter.2 ⟨hplaced, decide_eq_true rfl⟩
    obtain ⟨first, hfirst, hcontainer⟩ := Ordered.exists_mem_firstsBy Placed.container
      (Ordered.mem_sortBy.2 hlocal)
    refine ⟨_, ⟨placed.space, hspace, rfl⟩, _, List.mem_map_of_mem hfirst, ?_⟩
    exact List.mem_map_of_mem (List.mem_filter.2 ⟨hlocal, decide_eq_true hcontainer.symm⟩)

/-! ## Linked bases -/

theorem declares_linkBases {space : String} {declaration : Declaration} :
    (client.linkBases scope).Declares space declaration ↔
      ∃ original, client.Declares space original ∧ original.link scope = declaration := by
  simp only [Declares, linkBases, List.mem_map]
  constructor
  · intro hexists
    obtain ⟨_, ⟨group, hgroup, rfl⟩, rfl, hmem⟩ := hexists
    obtain ⟨original, horiginal, rfl⟩ := List.mem_map.1 hmem
    exact ⟨original, ⟨group, hgroup, rfl, horiginal⟩, rfl⟩
  · intro hexists
    obtain ⟨original, ⟨group, hgroup, rfl, hmem⟩, rfl⟩ := hexists
    exact ⟨_, ⟨group, hgroup, rfl⟩, rfl, List.mem_map_of_mem hmem⟩

@[simp]
theorem holds_linkBases {function : Callable} :
    (client.linkBases scope).Holds function ↔ client.Holds function := by
  simp [Holds, linkBases]

@[simp]
theorem declared_linkBases (scope : Scope) (client : Client) :
    (client.linkBases scope).declared = client.declared := by
  simp [declared, linkBases, List.flatMap_map, Function.comp_def, Declaration.name_link]

/-! ## Overloads -/

@[simp]
theorem declares_mapContainers {f : Container → Container} {space : String}
    {declaration : Declaration} :
    (client.mapContainers f).Declares space declaration ↔ client.Declares space declaration := by
  simp [Declares, mapContainers]

@[simp]
theorem declared_mapContainers (f : Container → Container) (client : Client) :
    (client.mapContainers f).declared = client.declared := by
  simp [declared, mapContainers, List.flatMap_map]

theorem references_rename (byType : Bool) (functions : List Callable) (function : Callable) :
    (Container.rename byType functions function).references = function.references := by
  unfold Container.rename
  split <;> rfl

theorem closed_disambiguate {byType : Bool} (h : client.Closed) :
    (client.disambiguate byType).1.Closed := by
  obtain ⟨hdeclarations, hfunctions⟩ := closed_iff.1 h
  have hresult : (client.disambiguate byType).1 =
      client.mapContainers (Container.disambiguate byType) := rfl
  rw [hresult, closed_iff, declared_mapContainers]
  constructor
  · intro space declaration hdeclares
    exact hdeclarations space declaration (declares_mapContainers.1 hdeclares)
  · intro renamed hholds
    obtain ⟨_, hmapped, _, hrenamed, hfunction⟩ := hholds
    obtain ⟨group, hgroup, rfl⟩ := List.mem_map.1 hmapped
    obtain ⟨container, hcontainer, rfl⟩ := List.mem_map.1 hrenamed
    rw [Container.disambiguate, Container.renameShared_eq_map] at hfunction
    obtain ⟨function, hmem, rfl⟩ := List.mem_map.1 hfunction
    rw [references_rename]
    exact hfunctions function ⟨group, hgroup, container, hcontainer, hmem⟩

end Client

end TypedClient
