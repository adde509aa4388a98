import TypedClient.Proofs.Client.Closure
import TypedClient.Proofs.Client.Designation
import TypedClient.Proofs.Name

/-!
# Bases that are not registered

A base of a namespace of the run becomes a reference into the client, also when
the base itself is not registered. The reference is made from the short name of
the base. It misses, and linking fails, unless a registered type of the
namespace has the same short name; then it designates that type instead.
-/

namespace TypedClient

def Declaration.base? (declaration : Declaration) : Option Base :=
  match declaration.shape with
  | .record record => record.base
  | .enumeration _ => none

theorem SourceType.base?_link_declarationOf (scope : Scope) (filter : MemberFilter)
    (docs : DocSource) {type base : SourceType} (h : type.base = some base) :
    ((type.declarationOf scope filter docs .record).link scope).base? =
      some ((baseOf scope base).link scope) := by
  simp [declarationOf, Declaration.link, Declaration.base?, recordOf, h]

theorem Declaration.target_mem_references {declaration : Declaration} {base : Base}
    (h : declaration.base? = some base) : base.target ∈ declaration.references := by
  unfold base? at h
  unfold references
  cases hshape : declaration.shape with
  | record record =>
    rw [hshape] at h
    have hbase : record.base = some base := h
    exact List.mem_append_left _ (by simp [hbase])
  | enumeration _ =>
    rw [hshape] at h
    contradiction

theorem Registry.name_ne_of_get?_ofList {types : List SourceType} {name : String}
    (h : (ofList types).get? name = none) : ∀ type ∈ types, type.name ≠ name := by
  intro type htype heq
  obtain ⟨first, hfirst, hname⟩ := Ordered.exists_mem_firstsBy SourceType.name htype
  have hfound : (ofList types).get? name = some first := by
    rw [get?_eq_some_iff, ofList_types]
    exact ⟨hfirst, hname.trans heq⟩
  rw [h] at hfound
  contradiction

/-- A record of the run has a base that is not registered, though its namespace is. -/
structure Scope.InheritsUnregistered (scope : Scope) (types : List SourceType)
    (type base : SourceType) : Prop where
  mem : type ∈ types
  isRecord : type.classify = .ok .record
  base_eq : type.base = some base
  unregistered : scope.registry.get? base.name = none
  space_registered : scope.registry.containsSpace base.space = true

/-- Namespace and short name of the base alone decide where an unregistered base points. -/
theorem Base.target_link_of_unregistered {scope : Scope} {base : SourceType}
    (hunregistered : scope.registry.get? base.name = none)
    (hspace : scope.registry.containsSpace base.space = true) :
    ((SourceType.baseOf scope base).link scope).target =
      .named (some (base.declaredAs scope.config).1) (base.declaredAs scope.config).2
        (base.args.map scope.resolve) := by
  simp only [link, target?, SourceType.baseOf, hunregistered, hspace, if_true]
  rfl

namespace Client

variable {scope : Scope} {filter : MemberFilter} {docs : DocSource} {config : Config}
  {types : List SourceType} {space name sourceName : String}

theorem designates_linkBases {client : Client} :
    (client.linkBases scope).Designates space name sourceName ↔
      client.Designates space name sourceName := by
  simp only [Designates, declares_linkBases]
  constructor
  · intro hexists
    obtain ⟨_, ⟨original, horiginal, rfl⟩, hname, hsource⟩ := hexists
    rw [Declaration.name_link] at hname
    rw [Declaration.sourceName_link] at hsource
    exact ⟨original, horiginal, hname, hsource⟩
  · intro hexists
    obtain ⟨original, horiginal, rfl, rfl⟩ := hexists
    exact ⟨_, ⟨original, horiginal, rfl⟩, original.name_link scope, original.sourceName_link scope⟩

/-- Linking fails with nothing but a reference that dangles. -/
theorem exists_danglingReference_of_not_closed {client : Client}
    (h : ¬ (client.linkBases scope).Closed) :
    ∃ context reference, (client.link scope).2 = .error (.danglingReference context reference) := by
  have hresult : (client.link scope).2 = (client.linkBases scope).validate := rfl
  cases hvalidate : (client.linkBases scope).validate with
  | ok warnings => exact absurd (validate_eq_ok_iff.1 hvalidate).1 h
  | error error =>
    obtain ⟨address, context, space, name, -, rfl, -⟩ := exists_danglesAt_of_validate hvalidate
    exact ⟨context, _, hresult.trans hvalidate⟩

theorem declares_linkBases_assemble (scope : Scope) (filter : MemberFilter) (docs : DocSource)
    {type : SourceType} (hmem : type ∈ types) {kind : DeclarableAs}
    (hkind : type.classify = .ok kind) :
    ((assemble scope filter docs types).linkBases scope).Declares
      (scope.config.targetSpace type.space)
      ((type.declarationOf scope filter docs kind).link scope) := by
  have hdeclaration : (type.space, type.declarationOf scope filter docs kind) ∈
      declarations scope filter docs types :=
    mem_declarations_iff.2 ⟨type, hmem, kind, hkind, rfl, rfl⟩
  exact declares_linkBases.2
    ⟨_, declares_declarationGroups.2 ⟨type.space, hdeclaration, rfl⟩, rfl⟩

variable {type base : SourceType}

/-- Linking fails where no type goes by the short name of the base. -/
theorem exists_danglingReference_of_unregistered (filter : MemberFilter) (docs : DocSource)
    (hinherits : scope.InheritsUnregistered types type base)
    (hnone : ∀ other ∈ types, other.declaredAs scope.config ≠ base.declaredAs scope.config) :
    ∃ context reference, ((assemble scope filter docs types).link scope).2 =
      .error (.danglingReference context reference) := by
  apply exists_danglingReference_of_not_closed
  -- in a closed client the base, too, would meet a declaration
  intro hclosed
  have hdeclares := declares_linkBases_assemble scope filter docs hinherits.mem hinherits.isRecord
  have hlinked := SourceType.base?_link_declarationOf scope filter docs hinherits.base_eq
  have htargets := (closed_iff.1 hclosed).1 _ _ hdeclares _
    (Declaration.target_mem_references hlinked)
  rw [Base.target_link_of_unregistered hinherits.unregistered hinherits.space_registered,
    TypeRef.targets_named_some, declared_linkBases] at htargets
  obtain ⟨declaration, hdeclaration, hname⟩ := mem_declared_iff.1 (htargets List.mem_cons_self)
  obtain ⟨other, hmem, -, -, heq⟩ := designates_assemble.1 ⟨declaration, hdeclaration, hname, rfl⟩
  exact hnone other hmem heq

/-- Linking makes a reference of the base that designates the other types that go by its short
name, and fails if there are none. -/
theorem link_of_unregistered_base (scope : Scope) (filter : MemberFilter) (docs : DocSource)
    (types : List SourceType) (hregistry : scope.registry = .ofList types)
    (hdeclarable : ∀ type ∈ types, type.isDeclarable = true) (type base : SourceType)
    (hinherits : scope.InheritsUnregistered types type base) :
    (∃ declaration linked,
      ((assemble scope filter docs types).link scope).1.Declares
        (scope.config.targetSpace type.space) declaration ∧
      declaration.sourceName = type.name ∧ declaration.base? = some linked ∧
      linked.target = .named (some (base.declaredAs scope.config).1)
        (base.declaredAs scope.config).2 (base.args.map scope.resolve)) ∧
    (∀ sourceName,
      ((assemble scope filter docs types).link scope).1.Designates
        (base.declaredAs scope.config).1 (base.declaredAs scope.config).2 sourceName ↔
      ∃ other ∈ types, other.name = sourceName ∧ other.name ≠ base.name ∧
        other.declaredAs scope.config = base.declaredAs scope.config) ∧
    ((∀ other ∈ types, other.declaredAs scope.config ≠ base.declaredAs scope.config) →
      ∃ context reference, ((assemble scope filter docs types).link scope).2 =
        .error (.danglingReference context reference)) := by
  refine ⟨?_, ?_, exists_danglingReference_of_unregistered filter docs hinherits⟩
  · exact ⟨_, _, declares_linkBases_assemble scope filter docs hinherits.mem hinherits.isRecord,
      Declaration.sourceName_link _ _,
      SourceType.base?_link_declarationOf scope filter docs hinherits.base_eq,
      Base.target_link_of_unregistered hinherits.unregistered hinherits.space_registered⟩
  · intro sourceName
    have hother := Registry.name_ne_of_get?_ofList (hregistry ▸ hinherits.unregistered)
    have hassemble : ((assemble scope filter docs types).link scope).1.Designates
        (base.declaredAs scope.config).1 (base.declaredAs scope.config).2 sourceName ↔
          ∃ other ∈ types, other.isDeclarable = true ∧ other.name = sourceName ∧
            other.declaredAs scope.config = base.declaredAs scope.config :=
      designates_linkBases.trans designates_assemble
    rw [hassemble]
    constructor
    · intro hexists
      obtain ⟨other, hmem, -, hname, heq⟩ := hexists
      exact ⟨other, hmem, hname, hother other hmem, heq⟩
    · intro hexists
      obtain ⟨other, hmem, hname, -, heq⟩ := hexists
      exact ⟨other, hmem, hdeclarable other hmem, hname, heq⟩

/-- Among plain names, a base that is not registered is never taken for another type. -/
theorem exists_danglingReference_of_plain (filter : MemberFilter) (docs : DocSource)
    (hregistry : scope.registry = .ofList types)
    (hinherits : scope.InheritsUnregistered types type base)
    (hplain : ∀ other ∈ types, Name.Plain other.name other.space)
    (hplainBase : Name.Plain base.name base.space) :
    ∃ context reference, ((assemble scope filter docs types).link scope).2 =
      .error (.danglingReference context reference) := by
  apply exists_danglingReference_of_unregistered filter docs hinherits
  intro other hmem heq
  obtain ⟨hspace, hshort⟩ := Prod.mk.inj heq
  have hplainOther := hplain other hmem
  rw [scope.config.targetSpace_injective hspace] at hshort hplainOther
  exact Registry.name_ne_of_get?_ofList (hregistry ▸ hinherits.unregistered) other hmem
    (hplainOther.eq_of_short_eq hplainBase hshort)

end Client

/-! ## A base beside a generic record -/

/-- A record of which the document may have a generic version as well. -/
def pageType : SourceType :=
  { name := "Shop.Models.Page", space := "Shop.Models", kind := .custom }

/-- The generic definition `Page<T>`; its short name does not count the type parameter. -/
def genericPageType : SourceType :=
  { name := "Shop.Models.Page\x601"
    space := "Shop.Models"
    kind := .generic .custom []
    typeParams := ["T"] }

def reportType : SourceType :=
  { name := "Shop.Models.Report"
    space := "Shop.Models"
    kind := .custom
    base := some pageType }

def reportScope : Scope :=
  { registry := .ofList [genericPageType, reportType], config := {} }

theorem inheritsUnregistered_reportType :
    reportScope.InheritsUnregistered [genericPageType, reportType] reportType pageType where
  mem := List.mem_cons_of_mem _ List.mem_cons_self
  isRecord := rfl
  base_eq := rfl
  unregistered := rfl
  space_registered := rfl

theorem isDeclarable_reportTypes :
    ∀ type ∈ [genericPageType, reportType], type.isDeclarable = true := by
  decide

/-- The base of the report, which is not registered, designates the generic record. -/
theorem designates_genericPageType :
    (∀ type ∈ [genericPageType, reportType], type.isDeclarable = true) ∧
      reportScope.InheritsUnregistered [genericPageType, reportType] reportType pageType ∧
      ((Client.assemble reportScope CherryPick.all.filter ({} : Docs)
        [genericPageType, reportType]).link reportScope).1.Designates
          (pageType.declaredAs {}).1 (pageType.declaredAs {}).2 genericPageType.name := by
  refine ⟨isDeclarable_reportTypes, inheritsUnregistered_reportType, ?_⟩
  have hlink := Client.link_of_unregistered_base reportScope CherryPick.all.filter ({} : Docs)
    [genericPageType, reportType] rfl isDeclarable_reportTypes reportType pageType
    inheritsUnregistered_reportType
  exact (hlink.2.1 _).2 ⟨genericPageType, List.mem_cons_self, rfl, by decide, by decide⟩

/-- Linking may well succeed on a base that is not registered. -/
theorem not_forall_unregistered_base_dangles :
    ¬ ∀ (scope : Scope) (filter : MemberFilter) (docs : DocSource) (types : List SourceType)
      (type base : SourceType), scope.registry = .ofList types →
      (∀ type ∈ types, type.isDeclarable = true) → scope.InheritsUnregistered types type base →
        ∃ context reference, ((Client.assemble scope filter docs types).link scope).2 =
          .error (.danglingReference context reference) := by
  intro hall
  obtain ⟨context, reference, hlink⟩ := hall reportScope CherryPick.all.filter ({} : Docs)
    [genericPageType, reportType] reportType pageType rfl isDeclarable_reportTypes
    inheritsUnregistered_reportType
  have hok : ((Client.assemble reportScope CherryPick.all.filter ({} : Docs)
      [genericPageType, reportType]).link reportScope).2 = .ok [] := rfl
  rw [hok] at hlink
  contradiction

end TypedClient
