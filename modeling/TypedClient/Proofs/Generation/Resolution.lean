import TypedClient.Proofs.Callable.Compile
import TypedClient.Proofs.Client.Closure
import TypedClient.Proofs.Generation.Run

/-!
# References of a run

A document speaks of its own types consistently when every descriptor that goes
by the name of a pending type carries the namespace of that type, and every base
that is not pending lies in a namespace without pending types. A run of such a
document never fails for a reference, whatever the configuration, the member
filter and the documentation are: the registry, the resolver, the assembly and
the linker arrive at the same namespace and the same name, at any depth.
-/

namespace TypedClient

/-- The descriptor occurs where a run makes a reference of it: in a member or in an argument of
the base of a pending type, or in a parameter or the response of an operation. -/
inductive Metadata.Describes (metadata : Metadata) (described : SourceType) : Prop
  | member {type : SourceType} {member : Member}
      (htype : type ∈ SourceType.pending metadata.types) (hmember : member ∈ type.members)
      (hoccurs : described.Occurs member.type)
  | baseArgument {type base arg : SourceType}
      (htype : type ∈ SourceType.pending metadata.types) (hbase : type.base = some base)
      (harg : arg ∈ base.args) (hoccurs : described.Occurs arg)
  | parameter {operation : Operation} {parameter : Parameter}
      (hoperation : operation ∈ metadata.operations)
      (hparameter : parameter ∈ operation.parameters)
      (hoccurs : described.Occurs parameter.type)
  | response {operation : Operation} {response : SourceType}
      (hoperation : operation ∈ metadata.operations)
      (hresponse : operation.response = some response) (hoccurs : described.Occurs response)

/-- The descriptors of a document agree on the namespaces of its types. -/
structure Metadata.Consistent (metadata : Metadata) : Prop where
  /-- A descriptor by the name of a pending type carries the namespace of that type. -/
  space_eq : ∀ described, metadata.Describes described →
    ∀ type ∈ SourceType.pending metadata.types,
      type.name = described.name → described.space = type.space
  /-- The base of a pending record is pending, or its namespace has no pending type. -/
  base_pending_or : ∀ type ∈ SourceType.pending metadata.types, type.classify = .ok .record →
    ∀ base, type.base = some base →
      (∃ other ∈ SourceType.pending metadata.types, other.name = base.name) ∨
        ∀ other ∈ SourceType.pending metadata.types, other.space ≠ base.space

namespace Scope

/-- Whatever occurs in the type by the name of a registered type carries its namespace. -/
def Settles (scope : Scope) (type : SourceType) : Prop :=
  ∀ described : SourceType, described.Occurs type → ∀ registered ∈ scope.registry.types,
    registered.name = described.name → described.space = registered.space

/-- The base is registered, or nothing of its namespace is. -/
def SettlesBase (scope : Scope) (base : SourceType) : Prop :=
  (∃ registered ∈ scope.registry.types, registered.name = base.name) ∨
    ∀ registered ∈ scope.registry.types, registered.space ≠ base.space

/-! ## References that meet declarations -/

variable {scope : Scope} {declared : List (String × String)}
  (hdeclared : ∀ registered ∈ scope.registry.types, registered.declaredAs scope.config ∈ declared)

include hdeclared

/-- A resolved reference meets the declarations of the types that occur in it. -/
theorem targets_resolve_subset {type : SourceType} (h : scope.Settles type) :
    (scope.resolve type).targets ⊆ declared := by
  intro target htarget
  obtain ⟨described, hoccurs, hcontains, rfl⟩ := exists_occurs_of_mem_targets htarget
  obtain ⟨registered, hmem, hname⟩ := Registry.contains_iff.1 hcontains
  have hspace := h described hoccurs registered hmem hname
  rw [(SourceType.declaredAs_eq_iff hname.symm).2 hspace]
  exact hdeclared registered hmem

/-- A linked base meets its declaration, or points nowhere itself. -/
theorem targets_link_baseOf_subset {base : SourceType} (hbase : scope.SettlesBase base)
    (hargs : ∀ arg ∈ base.args, scope.Settles arg) :
    ((SourceType.baseOf scope base).link scope).target.targets ⊆ declared := by
  have hresolved : (base.args.map scope.resolve).flatMap TypeRef.targets ⊆ declared := by
    intro target htarget
    obtain ⟨reference, hreference, htarget⟩ := List.mem_flatMap.1 htarget
    obtain ⟨arg, harg, rfl⟩ := List.mem_map.1 hreference
    exact targets_resolve_subset hdeclared (hargs arg harg) htarget
  cases hfound : scope.registry.get? base.name with
  | some registered =>
    obtain ⟨hmem, -⟩ := Registry.mem_of_get? hfound
    have hlink : ((SourceType.baseOf scope base).link scope).target =
        .named (some (registered.declaredAs scope.config).1)
          (registered.declaredAs scope.config).2 (base.args.map scope.resolve) := by
      simp only [Base.link, Base.target?, SourceType.baseOf, hfound]
      rfl
    rw [hlink, TypeRef.targets_named_some]
    exact List.cons_subset.2 ⟨hdeclared registered hmem, hresolved⟩
  | none =>
    -- the registry does not know the base, so it is its namespace that settles it
    have hspace : scope.registry.containsSpace base.space = false := by
      rw [Bool.eq_false_iff, ne_eq, Registry.containsSpace_iff]
      intro hexists
      obtain ⟨registered, hmem, hspace⟩ := hexists
      rcases hbase with ⟨other, hother, hname⟩ | hnone
      · rw [Registry.get?_eq_some_iff.2 ⟨hother, hname⟩] at hfound
        contradiction
      · exact hnone registered hmem hspace
    have hlink : ((SourceType.baseOf scope base).link scope).target =
        .named none (Name.stripArity base.name) (base.args.map scope.resolve) := by
      simp only [Base.link, Base.target?, SourceType.baseOf, hfound, hspace, Bool.false_eq_true,
        if_false]
    rw [hlink, TypeRef.targets_of_target?_eq_none rfl]
    exact hresolved

/-- A linked declaration refers to declared names only. -/
theorem targets_link_declarationOf_subset {filter : MemberFilter} {docs : DocSource}
    {type : SourceType} {kind : DeclarableAs}
    (hmembers : ∀ member ∈ type.members, scope.Settles member.type)
    (hbase : kind = .record → ∀ base, type.base = some base →
      scope.SettlesBase base ∧ ∀ arg ∈ base.args, scope.Settles arg) :
    ∀ reference ∈ ((type.declarationOf scope filter docs kind).link scope).references,
      reference.targets ⊆ declared := by
  intro reference hreference
  cases kind with
  | enumeration => contradiction
  | record =>
    have hreferences : ((type.declarationOf scope filter docs .record).link scope).references =
        (type.base.map fun base ↦ ((SourceType.baseOf scope base).link scope).target).toList ++
          (type.members.filter (filter type)).map fun member ↦ scope.resolve member.type := by
      simp only [SourceType.declarationOf, Declaration.link, Declaration.references,
        SourceType.recordOf, Option.map_map, List.map_map]
      rfl
    rw [hreferences, List.mem_append] at hreference
    rcases hreference with hreference | hreference
    · obtain ⟨base, heq, rfl⟩ := Option.map_eq_some_iff.1 (Option.mem_toList.1 hreference)
      obtain ⟨hsettles, hargs⟩ := hbase rfl base heq
      exact targets_link_baseOf_subset hdeclared hsettles hargs
    · obtain ⟨member, hmember, rfl⟩ := List.mem_map.1 hreference
      exact targets_resolve_subset hdeclared (hmembers member (List.mem_of_mem_filter hmember))

/-- A compiled function refers to declared names only. -/
theorem targets_compile_subset {docs : DocSource} {operation : Operation} {function : Callable}
    (hcompile : operation.compile scope docs = .ok (.compiled function))
    (hparameters : ∀ parameter ∈ operation.parameters, scope.Settles parameter.type)
    (hresponse : ∀ response, operation.response = some response → scope.Settles response) :
    ∀ reference ∈ function.references, reference.targets ⊆ declared := by
  obtain ⟨hreturns, hparams⟩ := Operation.references_of_compile hcompile
  intro reference hreference
  rw [Callable.references, hreturns, hparams, List.mem_cons] at hreference
  rcases hreference with rfl | hreference
  · cases heq : operation.response with
    | none => simp
    | some response => exact targets_resolve_subset hdeclared (hresponse response heq)
  · obtain ⟨parameter, hparameter, rfl⟩ := List.mem_map.1 hreference
    exact targets_resolve_subset hdeclared (hparameters parameter hparameter)

end Scope

/-! ## Runs -/

namespace Generation

variable {filter : MemberFilter} {config : Config} {docs : DocSource} {metadata : Metadata}

theorem declaredAs_mem_assembled (filter : MemberFilter) (config : Config) (docs : DocSource)
    (metadata : Metadata) (functions : List Placed) {type : SourceType}
    (hmem : type ∈ (scopeOf config metadata.types).registry.types) :
    type.declaredAs config ∈ (assembled filter config docs metadata functions).declared := by
  rw [scopeOf_types] at hmem
  exact Client.declaredAs_mem_declared (scopeOf config metadata.types) filter docs functions hmem
    (SourceType.mem_pending_iff.1 hmem).2

/-- Once its bases are linked, the client of a consistent document is closed. -/
theorem closed_link_assembled (filter : MemberFilter) {functions : List Placed}
    {skipped : List Diagnostic}
    (hcompile : compileAll (scopeOf config metadata.types) docs metadata.operations =
      .ok (functions, skipped))
    (hconsistent : metadata.Consistent) :
    ((assembled filter config docs metadata functions).linkBases
      (scopeOf config metadata.types)).Closed := by
  have hsettles : ∀ type, (∀ described : SourceType, described.Occurs type →
      metadata.Describes described) → (scopeOf config metadata.types).Settles type := by
    intro type hdescribes described hoccurs registered hmem
    rw [scopeOf_types] at hmem
    exact hconsistent.space_eq described (hdescribes described hoccurs) registered hmem
  have hdeclared : ∀ registered ∈ (scopeOf config metadata.types).registry.types,
      registered.declaredAs config ∈ (assembled filter config docs metadata functions).declared :=
    fun _ ↦ declaredAs_mem_assembled filter config docs metadata functions
  rw [Client.closed_iff, Client.declared_linkBases]
  constructor
  · intro space declaration hdeclares
    obtain ⟨original, horiginal, rfl⟩ := Client.declares_linkBases.1 hdeclares
    obtain ⟨source, hsource, -⟩ := Client.declares_build.1 horiginal
    obtain ⟨type, htype, kind, hkind, -, rfl⟩ := Client.mem_declarations_iff.1 hsource
    apply Scope.targets_link_declarationOf_subset hdeclared
    · intro member hmember
      exact hsettles _ fun _ ↦ .member htype hmember
    · intro hrecord base hbase
      subst hrecord
      constructor
      · rw [Scope.SettlesBase, scopeOf_types]
        exact hconsistent.base_pending_or type htype hkind base hbase
      · intro arg harg
        exact hsettles _ fun _ ↦ .baseArgument htype hbase harg
  · intro function hholds
    obtain ⟨placed, hplaced, rfl⟩ := Client.holds_build.1
      (Client.holds_linkBases.1 hholds)
    obtain ⟨operation, hoperation, function, hfunction, rfl⟩ :=
      exists_compile_of_mem_compileAll hcompile hplaced
    apply Scope.targets_compile_subset hdeclared hfunction
    · intro parameter hparameter
      exact hsettles _ fun _ ↦ .parameter hoperation hparameter
    · intro response hresponse
      exact hsettles _ fun _ ↦ .response hoperation hresponse

/-- The run of a consistent document never fails for a reference, but only where an operation does
not compile; and the client of a run that succeeds is closed. -/
theorem runWith_resolves (filter : MemberFilter) (config : Config) (docs : DocSource)
    (metadata : Metadata) (hconsistent : metadata.Consistent) :
    (∀ context reference,
      runWith filter config docs metadata ≠ .error (.danglingReference context reference)) ∧
    (∀ error, runWith filter config docs metadata = .error error →
      ∃ operation ∈ metadata.operations,
        operation.compile (scopeOf config metadata.types) docs = .error error) ∧
    ∀ generation, runWith filter config docs metadata = .ok generation →
      generation.client.Closed := by
  have herror : ∀ error, runWith filter config docs metadata = .error error →
      ∃ operation ∈ metadata.operations,
        operation.compile (scopeOf config metadata.types) docs = .error error := by
    intro error hrun
    rcases runWith_eq_error hrun with hcompile | ⟨functions, skipped, hcompile, hlink⟩
    · exact exists_compile_eq_error hcompile
    · have hclosed := closed_link_assembled filter hcompile hconsistent
      obtain ⟨warnings, hwarnings⟩ := Client.exists_link_eq_ok_iff.2 hclosed
      rw [hlink] at hwarnings
      contradiction
  refine ⟨?_, herror, ?_⟩
  · intro context reference hrun
    obtain ⟨operation, -, hcompile⟩ := herror _ hrun
    have hoperation := Operation.operation?_of_compile hcompile
    contradiction
  · intro generation hrun
    obtain ⟨functions, skipped, externals, hcompile, -, hclient⟩ := runWith_eq_ok hrun
    rw [hclient]
    apply Client.closed_disambiguate
    exact closed_link_assembled filter hcompile hconsistent

/-! ## A record with a generic base -/

def lineType : SourceType :=
  { name := "Shop.Models.Line", space := "Shop.Models", kind := .custom }

def cartType : SourceType :=
  { name := "Shop.Models.Cart"
    space := "Shop.Models"
    kind := .custom
    members := [{ name := "lines", type := .array lineType 1 }]
    base := some (.closed "Vendor.Entity\x601" "Vendor" .custom [lineType]) }

/-- The base comes from outside, its argument and the member from the document. -/
def cartMetadata : Metadata :=
  { types := [lineType, cartType]
    operations := [{
      name := "Get"
      container := "Shop.CartController"
      verb := .get
      route := "cart"
      response := some cartType }] }

theorem pending_cartMetadata : SourceType.pending cartMetadata.types = [lineType, cartType] := rfl

theorem mem_pending_cartMetadata {type : SourceType} :
    type ∈ SourceType.pending cartMetadata.types ↔ type = lineType ∨ type = cartType := by
  rw [pending_cartMetadata, List.mem_pair]

theorem space_eq_of_describes_cartMetadata {described : SourceType}
    (h : cartMetadata.Describes described) : described.space = "Shop.Models" := by
  have hline : described.Occurs lineType → described.space = "Shop.Models" := by
    rintro (_ | ⟨hpart, -⟩)
    · rfl
    · contradiction
  cases h with
  | member htype hmember hoccurs =>
    rcases mem_pending_cartMetadata.1 htype with rfl | rfl
    · contradiction
    · obtain rfl := List.mem_singleton.1 hmember
      rcases hoccurs with _ | ⟨hpart, hinner⟩
      · rfl
      · obtain rfl := List.mem_singleton.1 hpart
        exact hline hinner
  | baseArgument htype hbase harg hoccurs =>
    rcases mem_pending_cartMetadata.1 htype with rfl | rfl
    · contradiction
    · obtain rfl := Option.some.inj hbase
      obtain rfl := List.mem_singleton.1 harg
      exact hline hoccurs
  | parameter hoperation hparameter hoccurs =>
    obtain rfl := List.mem_singleton.1 hoperation
    contradiction
  | response hoperation hresponse hoccurs =>
    obtain rfl := List.mem_singleton.1 hoperation
    obtain rfl := Option.some.inj hresponse
    rcases hoccurs with _ | ⟨hpart, -⟩
    · rfl
    · contradiction

theorem consistent_cartMetadata : cartMetadata.Consistent := by
  constructor
  · intro described hdescribed type htype _
    rw [space_eq_of_describes_cartMetadata hdescribed]
    rcases mem_pending_cartMetadata.1 htype with rfl | rfl <;> rfl
  · intro type htype _ base hbase
    right
    intro other hother
    rcases mem_pending_cartMetadata.1 htype with rfl | rfl
    · contradiction
    · obtain rfl := Option.some.inj hbase
      rcases mem_pending_cartMetadata.1 hother with rfl | rfl <;> decide

theorem runWith_resolves_cartMetadata : ∃ generation,
    runWith CherryPick.all.filter {} ({} : Docs) cartMetadata = .ok generation ∧
      generation.client.Closed := by
  obtain ⟨-, herror, hclosed⟩ := runWith_resolves CherryPick.all.filter {} ({} : Docs)
    cartMetadata consistent_cartMetadata
  cases hrun : runWith CherryPick.all.filter {} ({} : Docs) cartMetadata with
  | ok generation => exact ⟨generation, rfl, hclosed generation hrun⟩
  | error error =>
    obtain ⟨operation, hmem, hcompile⟩ := herror error hrun
    obtain rfl := List.mem_singleton.1 hmem
    contradiction

end Generation

end TypedClient
