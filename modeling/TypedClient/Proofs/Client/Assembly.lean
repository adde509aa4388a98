import TypedClient.Proofs.Client.Merging
import TypedClient.Proofs.Registry
import TypedClient.Proofs.Scope.Targets

/-!
# What an assembled client declares

A client declares exactly the pairs of a client namespace and a declaration that
its parts were distributed from, and of a pending type it holds one declaration,
in the client namespace of the type and under its short name.
-/

namespace TypedClient

/-- Descriptors of one name go by the same name when their namespaces agree. -/
theorem SourceType.declaredAs_eq_iff {config : Config} {left right : SourceType}
    (h : left.name = right.name) :
    left.declaredAs config = right.declaredAs config ↔ left.space = right.space := by
  rw [declaredAs, declaredAs, Prod.mk.injEq]
  constructor
  · intro hexists
    obtain ⟨hspace, -⟩ := hexists
    exact config.targetSpace_injective hspace
  · intro hspace
    rw [hspace, h]
    exact ⟨rfl, rfl⟩

namespace Client

/-- The client has the declaration in the namespace of that name. -/
def Declares (client : Client) (space : String) (declaration : Declaration) : Prop :=
  ∃ group ∈ client, group.name = space ∧ declaration ∈ group.declarations

theorem mem_declared_iff {client : Client} {space name : String} :
    (space, name) ∈ client.declared ↔
      ∃ declaration, client.Declares space declaration ∧ declaration.name = name := by
  simp only [declared, List.mem_flatMap, List.mem_map, Declares, Prod.mk.injEq]
  constructor
  · intro hexists
    obtain ⟨group, hgroup, declaration, hmem, hspace, hname⟩ := hexists
    exact ⟨declaration, ⟨group, hgroup, hspace, hmem⟩, hname⟩
  · intro hexists
    obtain ⟨declaration, ⟨group, hgroup, hspace, hmem⟩, hname⟩ := hexists
    exact ⟨group, hgroup, declaration, hmem, hspace, hname⟩

theorem declares_build {config : Config} {declarations : List (String × Declaration)}
    {functions : List Placed} {space : String} {declaration : Declaration} :
    (build config declarations functions).Declares space declaration ↔
      ∃ source, (source, declaration) ∈ declarations ∧ config.targetSpace source = space := by
  simp only [Declares, build_eq, spaces, Ordered.mem_sortBy, List.mem_map, Ordered.mem_ascending,
    List.mem_append]
  constructor
  · intro hexists
    obtain ⟨group, ⟨source, -, rfl⟩, hspace, hmem⟩ := hexists
    simp only [namespaceOf, Ordered.mem_sortBy, List.mem_map, List.mem_filter,
      decide_eq_true_eq] at hmem
    obtain ⟨pair, ⟨hpair, rfl⟩, rfl⟩ := hmem
    exact ⟨pair.1, hpair, hspace⟩
  · intro hexists
    obtain ⟨source, hpair, hspace⟩ := hexists
    refine ⟨_, ⟨source, .inl ⟨_, hpair, rfl⟩, rfl⟩, hspace, ?_⟩
    simp only [namespaceOf, Ordered.mem_sortBy, List.mem_map, List.mem_filter,
      decide_eq_true_eq]
    exact ⟨_, ⟨hpair, rfl⟩, rfl⟩

theorem declares_declarationGroups {config : Config} {declarations : List (String × Declaration)}
    {space : String} {declaration : Declaration} :
    (declarationGroups config declarations).Declares space declaration ↔
      ∃ source, (source, declaration) ∈ declarations ∧ config.targetSpace source = space := by
  rw [declarationGroups_eq_build, declares_build]

end Client

namespace SourceType

variable {scope : Scope} {filter : MemberFilter} {docs : DocSource}

theorem isDeclarable_iff {type : SourceType} :
    type.isDeclarable = true ↔ ∃ kind, type.classify = .ok kind := by
  unfold isDeclarable
  cases type.classify <;> simp [Except.isOk, Except.toBool]

theorem declare?_eq_some_iff {type : SourceType} {space : String} {declaration : Declaration} :
    declare? scope filter docs type = some (space, declaration) ↔
      ∃ kind, type.classify = .ok kind ∧ space = type.space ∧
        declaration = declarationOf scope filter docs type kind := by
  unfold declare?
  cases type.classify with
  | ok kind => simp [eq_comm]
  | error reason => simp

end SourceType

namespace Client

variable {scope : Scope} {filter : MemberFilter} {docs : DocSource}

theorem mem_declarations_iff {types : List SourceType} {space : String}
    {declaration : Declaration} :
    (space, declaration) ∈ declarations scope filter docs types ↔
      ∃ type ∈ types, ∃ kind, type.classify = .ok kind ∧ space = type.space ∧
        declaration = type.declarationOf scope filter docs kind := by
  simp only [declarations, List.mem_filterMap, SourceType.declare?_eq_some_iff]

/-- Declarations come in the order of the types that can be declared. -/
theorem map_declarations {α : Type} {key : String × Declaration → α} {typeKey : SourceType → α}
    (h : ∀ type kind, key (type.space, type.declarationOf scope filter docs kind) = typeKey type)
    (types : List SourceType) :
    (declarations scope filter docs types).map key =
      (types.filter SourceType.isDeclarable).map typeKey := by
  induction types with
  | nil => rfl
  | cons type types ih =>
    rw [declarations, List.filterMap_cons, List.filter_cons, SourceType.declare?,
      SourceType.isDeclarable]
    cases type.classify with
    | ok kind => exact congrArg₂ List.cons (h type kind) ih
    | error why => exact ih

theorem map_declarations_pending {α : Type} {key : String × Declaration → α}
    {typeKey : SourceType → α}
    (h : ∀ type kind, key (type.space, type.declarationOf scope filter docs kind) = typeKey type)
    (types : List SourceType) :
    (declarations scope filter docs (SourceType.pending types)).map key =
      (SourceType.pending types).map typeKey := by
  rw [map_declarations h, SourceType.filter_isDeclarable_pending]

/-- A declarable type is declared in its client namespace under its short name. -/
theorem declaredAs_mem_declared (scope : Scope) (filter : MemberFilter) (docs : DocSource)
    {types : List SourceType} (functions : List Placed) {type : SourceType} (hmem : type ∈ types)
    (hdeclarable : type.isDeclarable = true) : type.declaredAs scope.config ∈
      (build scope.config (declarations scope filter docs types) functions).declared := by
  obtain ⟨kind, hkind⟩ := SourceType.isDeclarable_iff.1 hdeclarable
  have hdeclaration : (type.space, type.declarationOf scope filter docs kind) ∈
      declarations scope filter docs types :=
    mem_declarations_iff.2 ⟨type, hmem, kind, hkind, rfl, rfl⟩
  apply mem_declared_iff.2
  exact ⟨_, declares_build.2 ⟨type.space, hdeclaration, rfl⟩, rfl⟩

end Client

end TypedClient
