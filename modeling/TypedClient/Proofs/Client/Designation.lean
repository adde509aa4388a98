import TypedClient.Proofs.Client.Assembly

/-!
# References by qualified name

A descriptor whose qualified name is registered always becomes a reference into
the client. The reference is made from the namespace the descriptor itself
carries, so it designates the declaration of the registered type exactly when
that is the namespace of the registration; a descriptor that leaves its
namespace out designates nothing, unless the type was registered without one.
-/

namespace TypedClient

theorem Scope.resolve_of_contains {scope : Scope} {type : SourceType}
    (h : scope.registry.contains type.name = true) :
    scope.resolve type = .named (some (type.declaredAs scope.config).1)
      (type.declaredAs scope.config).2 (scope.resolveParams type.typeParams type.kind) := by
  rw [resolve_eq, if_pos h]
  rfl

namespace Client

/-- The client declares the source type of that name under a client namespace and a name. -/
def Designates (client : Client) (space name sourceName : String) : Prop :=
  ∃ declaration, client.Declares space declaration ∧ declaration.name = name ∧
    declaration.sourceName = sourceName

variable {scope : Scope} {filter : MemberFilter} {docs : DocSource}

/-- The types that go by a namespace and a name are what an assembled client declares there. -/
theorem designates_assemble {types : List SourceType} {space name sourceName : String} :
    (assemble scope filter docs types).Designates space name sourceName ↔
      ∃ type ∈ types, type.isDeclarable = true ∧ type.name = sourceName ∧
        type.declaredAs scope.config = (space, name) := by
  simp only [Designates, assemble, declares_declarationGroups, mem_declarations_iff,
    SourceType.isDeclarable_iff]
  constructor
  · intro hexists
    obtain ⟨_, ⟨_, ⟨type, htype, kind, hkind, rfl, rfl⟩, rfl⟩, rfl, rfl⟩ := hexists
    exact ⟨type, htype, ⟨kind, hkind⟩, rfl, rfl⟩
  · intro hexists
    obtain ⟨type, htype, ⟨kind, hkind⟩, rfl, heq⟩ := hexists
    obtain ⟨rfl, rfl⟩ := Prod.mk.inj heq
    exact ⟨type.declarationOf scope filter docs kind,
      ⟨type.space, ⟨type, htype, kind, hkind, rfl, rfl⟩, rfl⟩, rfl, rfl⟩

/-- A registered type that can be declared has one declaration, where its registration says. -/
theorem designates_assemble_iff {registered : SourceType} {space name : String}
    (hmem : registered ∈ scope.registry.types) (hdeclarable : registered.isDeclarable = true) :
    (assemble scope filter docs scope.registry.types).Designates space name registered.name ↔
      (space, name) = registered.declaredAs scope.config := by
  rw [designates_assemble]
  constructor
  · intro hexists
    obtain ⟨type, htype, -, hname, heq⟩ := hexists
    rw [← Registry.eq_of_name_eq htype hmem hname, heq]
  · intro heq
    exact ⟨registered, hmem, hdeclarable, rfl, heq.symm⟩

end Client

/-- A reference by a registered name designates the declaration of the registered type exactly
when the descriptor carries the namespace of the registration. -/
theorem resolve_designates_iff (scope : Scope) (filter : MemberFilter) (docs : DocSource)
    (type registered : SourceType)
    (hdeclarable : ∀ entry ∈ scope.registry.types, entry.isDeclarable = true)
    (hregistered : scope.registry.get? type.name = some registered) :
    ∃ space name args, scope.resolve type = .named (some space) name args ∧
      ((Client.assemble scope filter docs scope.registry.types).Designates space name
        registered.name ↔ type.space = registered.space) := by
  obtain ⟨hmem, hname⟩ := Registry.mem_of_get? hregistered
  have hcontains : scope.registry.contains type.name = true :=
    Registry.contains_iff.2 ⟨registered, hmem, hname⟩
  refine ⟨_, _, _, Scope.resolve_of_contains hcontains, ?_⟩
  rw [Client.designates_assemble_iff hmem (hdeclarable registered hmem)]
  exact SourceType.declaredAs_eq_iff hname.symm

/-! ## A mention without a namespace -/

/-- A record that is declared in the namespace `Shop.Models`. -/
def orderType : SourceType :=
  { name := "Shop.Models.Order", space := "Shop.Models", kind := .custom }

/-- A mention of the record that leaves the namespace out. -/
def bareOrderType : SourceType :=
  { name := "Shop.Models.Order", kind := .custom }

def orderScope : Scope :=
  { registry := .ofList [orderType], config := {} }

theorem orderScope_types : orderScope.registry.types = [orderType] :=
  Registry.ofList_types [orderType]

theorem orderScope_get? : orderScope.registry.get? bareOrderType.name = some orderType := by
  rw [Registry.get?_eq_some_iff, orderScope_types]
  exact ⟨List.mem_singleton_self _, rfl⟩

theorem orderScope_isDeclarable :
    ∀ entry ∈ orderScope.registry.types, entry.isDeclarable = true := by
  rw [orderScope_types]
  decide

/-- The theorem at the bare mention: its reference designates nothing. -/
theorem resolve_designates_bareOrderType :
    (∀ entry ∈ orderScope.registry.types, entry.isDeclarable = true) ∧
      orderScope.registry.get? bareOrderType.name = some orderType ∧
      ∃ space name args, orderScope.resolve bareOrderType = .named (some space) name args ∧
        ((Client.assemble orderScope CherryPick.all.filter ({} : Docs) orderScope.registry.types).Designates
          space name orderType.name ↔ bareOrderType.space = orderType.space) :=
  ⟨orderScope_isDeclarable, orderScope_get?,
    resolve_designates_iff orderScope CherryPick.all.filter ({} : Docs) bareOrderType orderType
      orderScope_isDeclarable orderScope_get?⟩

/-- The namespace of the mention counts: not every reference by a registered name designates the
declaration of the registered type. -/
theorem not_forall_resolve_designates :
    ¬ ∀ (scope : Scope) (filter : MemberFilter) (docs : DocSource) (type registered : SourceType),
      (∀ entry ∈ scope.registry.types, entry.isDeclarable = true) →
      scope.registry.get? type.name = some registered →
      ∃ space name args, scope.resolve type = .named (some space) name args ∧
        (Client.assemble scope filter docs scope.registry.types).Designates space name
          registered.name := by
  intro hall
  obtain ⟨space, name, args, hresolve, hdesignates⟩ := hall orderScope CherryPick.all.filter
    ({} : Docs) bareOrderType orderType orderScope_isDeclarable orderScope_get?
  have hmem : orderType ∈ orderScope.registry.types := by
    rw [orderScope_types]
    exact List.mem_singleton_self _
  have hcontains : orderScope.registry.contains bareOrderType.name = true :=
    Registry.contains_iff.2 ⟨orderType, hmem, rfl⟩
  rw [Scope.resolve_of_contains hcontains, TypeRef.named.injEq, Option.some.injEq] at hresolve
  obtain ⟨rfl, rfl, -⟩ := hresolve
  have heq := (Client.designates_assemble_iff hmem
    (orderScope_isDeclarable orderType hmem)).1 hdesignates
  have hname : bareOrderType.name = orderType.name := rfl
  have hspace := (SourceType.declaredAs_eq_iff hname).1 heq
  exact absurd hspace (by decide)

end TypedClient
