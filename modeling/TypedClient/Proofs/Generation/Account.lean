import TypedClient.Proofs.Client.Arrangement
import TypedClient.Proofs.Generation.Run

/-!
# What becomes of a document

A run that succeeds accounts for everything in its document. Of each type name
the first descriptor becomes one declaration or one warning, and repetitions
become nothing. Each operation becomes one function or one warning, and the
functions of a container are those of its operations, in their order.
-/

namespace TypedClient

/-- The warning is about a type of the name. -/
def Diagnostic.isAboutType (name : String) : Diagnostic → Bool
  | unsupportedType type _ => type = name
  | _ => false

/-- The warning is about the method of an operation. -/
def Diagnostic.isAboutVerb : Diagnostic → Bool
  | unsupportedVerb _ _ _ => true
  | _ => false

/-- Client namespace and container that the function of an operation belongs to. -/
def Operation.seat (config : Config) (operation : Operation) : String × String :=
  (config.targetSpace (Name.namespaceOf operation.container),
    Name.containerBase operation.container ++ config.containerSuffix)

/-- A compiled function bears the name of its action. -/
theorem Operation.plain_of_compile {scope : Scope} {docs : DocSource} {operation : Operation}
    {function : Callable} (h : operation.compile scope docs = .ok (.compiled function)) :
    function.plain = function := by
  obtain ⟨-, -, bound, -, rfl⟩ := compile_eq_compiled_iff.1 h
  rfl

namespace SourceType

theorem undeclared?_eq_some_iff {type : SourceType} {warning : Diagnostic} :
    type.undeclared? = some warning ↔
      ∃ why, type.classify = .error why ∧ warning = .unsupportedType type.name why.reason := by
  unfold undeclared?
  cases type.classify <;> simp [eq_comm]

/-- A warning is about the type it is made from. -/
theorem filter_isAboutType_undeclared (name : String) (types : List SourceType) :
    (types.filterMap undeclared?).filter (Diagnostic.isAboutType name) =
      (types.filter (·.name = name)).filterMap undeclared? := by
  rw [List.filter_filterMap, List.filterMap_filter]
  apply List.filterMap_congr
  intro type _
  unfold undeclared?
  cases type.classify with
  | ok kind => simp
  | error why => by_cases hname : type.name = name <;> simp [Diagnostic.isAboutType, hname]

end SourceType

/-- No two pending types are declared under one source name. -/
theorem Client.nodup_sourceNames_declarations (scope : Scope) (filter : MemberFilter)
    (docs : DocSource) (types : List SourceType) :
    ((declarations scope filter docs (SourceType.pending types)).map (·.2.sourceName)).Nodup := by
  have hnames : (declarations scope filter docs (SourceType.pending types)).map (·.2.sourceName) =
      (SourceType.pending types).map SourceType.name :=
    map_declarations_pending (fun _ _ ↦ rfl) _
  rw [hnames]
  exact SourceType.nodup_names_pending types

namespace Client

theorem externals_of_link {scope : Scope} {client : Client} {warnings : List Diagnostic}
    (h : (client.link scope).2 = .ok warnings) :
    warnings = (client.linkBases scope).externals.map .externalReference := by
  have hresult : (client.link scope).2 = (client.linkBases scope).validate := rfl
  rw [hresult] at h
  exact (validate_eq_ok_iff.1 h).2

theorem exists_unresolvedOverload_of_mem {byType : Bool} {client : Client} {warning : Diagnostic}
    (h : warning ∈ (client.disambiguate byType).2) :
    ∃ container name, warning = .unresolvedOverload container name := by
  simp only [disambiguate, Container.overloads, List.mem_flatMap, List.mem_map] at h
  obtain ⟨group, -, container, -, name, -, rfl⟩ := h
  exact ⟨container.name, name, rfl⟩

end Client

namespace Generation

/-- The declarations made from types of the name, each with its namespace. -/
def declarationsOf (generation : Generation) (name : String) : List (String × Declaration) :=
  generation.client.placements.filter (·.2.sourceName = name)

def typeWarnings (generation : Generation) (name : String) : List Diagnostic :=
  generation.diagnostics.filter (Diagnostic.isAboutType name)

def verbWarnings (generation : Generation) : List Diagnostic :=
  generation.diagnostics.filter Diagnostic.isAboutVerb

/-- Everything in the document has its place in the generation, and nothing else has one. -/
structure Accounts (filter : MemberFilter) (config : Config) (docs : DocSource)
    (metadata : Metadata) (generation : Generation) : Prop where
  arranged : generation.client.Arranged config
  declared : ∀ type kind, Ordered.IsFirst SourceType.name metadata.types type →
    type.classify = .ok kind →
      generation.declarationsOf type.name = [(config.targetSpace type.space,
        (type.declarationOf (scopeOf config metadata.types) filter docs kind).link
          (scopeOf config metadata.types))] ∧
      generation.typeWarnings type.name = []
  undeclared : ∀ type why, Ordered.IsFirst SourceType.name metadata.types type →
    type.classify = .error why →
      generation.declarationsOf type.name = [] ∧
      generation.typeWarnings type.name = [.unsupportedType type.name why.reason]
  only_types : ∀ name, (∀ type ∈ metadata.types, type.name ≠ name) →
    generation.declarationsOf name = [] ∧ generation.typeWarnings name = []
  /-- Function by function, a container holds what its operations compile to. -/
  compiled : ∀ group ∈ generation.client, ∀ container ∈ group.containers,
    List.Forall₂ (fun operation function ↦ operation.compile (scopeOf config metadata.types) docs =
        .ok (.compiled function.plain))
      ((metadata.operations.filter (·.verb.isSupported)).filter
        (·.seat config = (group.name, container.name)))
      container.functions
  seated : ∀ operation ∈ metadata.operations, operation.verb.isSupported = true →
    ∃ group ∈ generation.client, ∃ container ∈ group.containers,
      (group.name, container.name) = operation.seat config
  skipped : generation.verbWarnings = (metadata.operations.filter (!·.verb.isSupported)).map
    fun operation ↦ .unsupportedVerb operation.container operation.name operation.verb.name

variable {filter : MemberFilter} {config : Config} {docs : DocSource} {metadata : Metadata}
  {generation : Generation}

/-! ## The client -/

/-- The client of a run is the assembled one, with bases linked and functions renamed in place. -/
theorem client_eq_amend (h : runWith filter config docs metadata = .ok generation) :
    ∃ functions skipped,
      compileAll (scopeOf config metadata.types) docs metadata.operations =
        .ok (functions, skipped) ∧
      generation.client = (assembled filter config docs metadata functions).amend
        (Declaration.link (scopeOf config metadata.types))
        (Container.disambiguate config.disambiguateByType) := by
  obtain ⟨functions, skipped, externals, hcompile, -, hclient⟩ := runWith_eq_ok h
  exact ⟨functions, skipped, hcompile, hclient.trans (Client.disambiguate_linkBases _ _ _)⟩

theorem arranged_of_runWith (h : runWith filter config docs metadata = .ok generation) :
    generation.client.Arranged config := by
  obtain ⟨functions, skipped, -, hclient⟩ := client_eq_amend h
  rw [hclient]
  exact (Client.arranged_build config _ functions).amend (Declaration.name_link _) (fun _ ↦ rfl)
    (Client.plain_disambiguate _)

/-! ## Types -/

/-- A client declares what its pending types are declared as, in some order. -/
theorem perm_placements_of_runWith (h : runWith filter config docs metadata = .ok generation) :
    generation.client.placements.Perm
      ((Client.declarations (scopeOf config metadata.types) filter docs
        (SourceType.pending metadata.types)).map fun pair ↦
          (config.targetSpace pair.1, pair.2.link (scopeOf config metadata.types))) := by
  obtain ⟨functions, skipped, -, hclient⟩ := client_eq_amend h
  rw [hclient, Client.placements_amend]
  have hperm := (Client.perm_placements_build config (Client.declarations
    (scopeOf config metadata.types) filter docs (SourceType.pending metadata.types)) functions).map
      fun pair ↦ (pair.1, pair.2.link (scopeOf config metadata.types))
  rwa [List.map_map] at hperm

theorem perm_declarationsOf_of_runWith (h : runWith filter config docs metadata = .ok generation)
    (name : String) : (generation.declarationsOf name).Perm
      (((Client.declarations (scopeOf config metadata.types) filter docs
        (SourceType.pending metadata.types)).filter (·.2.sourceName = name)).map fun pair ↦
          (config.targetSpace pair.1, pair.2.link (scopeOf config metadata.types))) := by
  have hperm := (perm_placements_of_runWith h).filter fun pair ↦
    decide (pair.2.sourceName = name)
  rw [List.filter_map] at hperm
  simpa only [declarationsOf, Function.comp_def, Declaration.sourceName_link] using hperm

theorem declarationsOf_eq_singleton (h : runWith filter config docs metadata = .ok generation)
    {type : SourceType} (hpending : type ∈ SourceType.pending metadata.types) {kind : DeclarableAs}
    (hkind : type.classify = .ok kind) :
    generation.declarationsOf type.name = [(config.targetSpace type.space,
      (type.declarationOf (scopeOf config metadata.types) filter docs kind).link
        (scopeOf config metadata.types))] := by
  have hmem : (type.space, type.declarationOf (scopeOf config metadata.types) filter docs kind) ∈
      Client.declarations (scopeOf config metadata.types) filter docs
        (SourceType.pending metadata.types) :=
    Client.mem_declarations_iff.2 ⟨type, hpending, kind, hkind, rfl, rfl⟩
  have hperm := perm_declarationsOf_of_runWith h type.name
  have hsingle := Ordered.filter_key_eq_singleton (Client.nodup_sourceNames_declarations
    (scopeOf config metadata.types) filter docs metadata.types) hmem
  exact List.perm_singleton.1 (hperm.trans (.of_eq (congrArg _ hsingle)))

theorem declarationsOf_eq_nil (h : runWith filter config docs metadata = .ok generation)
    {name : String} (hnone : ∀ type ∈ SourceType.pending metadata.types, type.name ≠ name) :
    generation.declarationsOf name = [] := by
  have hperm := perm_declarationsOf_of_runWith h name
  have hmiss : (Client.declarations (scopeOf config metadata.types) filter docs
      (SourceType.pending metadata.types)).filter (·.2.sourceName = name) = [] := by
    rw [List.filter_eq_nil_iff]
    intro pair hpair hname
    obtain ⟨type, htype, kind, -, -, hdeclaration⟩ := Client.mem_declarations_iff.1 hpair
    apply hnone type htype
    rw [← of_decide_eq_true hname, hdeclaration]
    rfl
  rw [hmiss] at hperm
  exact hperm.eq_nil

/-! ## Warnings -/

/-- Warnings about types come first, then those about methods; whatever follows is neither. -/
theorem exists_diagnostics_eq (h : runWith filter config docs metadata = .ok generation) :
    ∃ others, generation.diagnostics = SourceType.undeclared metadata.types ++
        (metadata.operations.filter (!·.verb.isSupported)).map (fun operation ↦
          .unsupportedVerb operation.container operation.name operation.verb.name) ++ others ∧
      ∀ warning ∈ others, (∃ reference, warning = .externalReference reference) ∨
        ∃ container name, warning = .unresolvedOverload container name := by
  obtain ⟨functions, skipped, externals, hcompile, hlink, rfl⟩ := runWith_eq_ok_iff.1 h
  obtain ⟨-, rfl⟩ := forall₂_of_compileAll hcompile
  refine ⟨_, List.append_assoc _ _ _, ?_⟩
  intro warning hwarning
  rcases List.mem_append.1 hwarning with hexternal | hoverload
  · rw [Client.externals_of_link hlink] at hexternal
    obtain ⟨reference, -, rfl⟩ := List.mem_map.1 hexternal
    exact .inl ⟨reference, rfl⟩
  · exact .inr (Client.exists_unresolvedOverload_of_mem hoverload)

/-- The warnings about types by one name are those of its first descriptor. -/
theorem typeWarnings_of_runWith (h : runWith filter config docs metadata = .ok generation)
    (name : String) : generation.typeWarnings name =
      ((Ordered.firstsBy SourceType.name metadata.types).filter (·.name = name)).filterMap
        SourceType.undeclared? := by
  obtain ⟨others, hdiagnostics, hothers⟩ := exists_diagnostics_eq h
  have hnone : others.filter (Diagnostic.isAboutType name) = [] := by
    rw [List.filter_eq_nil_iff]
    intro warning hwarning
    rcases hothers warning hwarning with ⟨reference, rfl⟩ | ⟨container, shared, rfl⟩ <;> exact nofun
  rw [typeWarnings, hdiagnostics, List.filter_append, List.filter_append, hnone, List.filter_map,
    SourceType.undeclared, SourceType.filter_isAboutType_undeclared]
  simp [Function.comp_def, Diagnostic.isAboutType]

theorem typeWarnings_of_isFirst (h : runWith filter config docs metadata = .ok generation)
    {type : SourceType} (hfirst : Ordered.IsFirst SourceType.name metadata.types type) :
    generation.typeWarnings type.name = type.undeclared?.toList := by
  have hmem := Ordered.mem_firstsBy_iff.2 hfirst
  rw [typeWarnings_of_runWith h,
    Ordered.filter_key_eq_singleton (Ordered.nodup_map_firstsBy _ _) hmem, List.filterMap_cons]
  cases type.undeclared? <;> rfl

theorem typeWarnings_eq_nil (h : runWith filter config docs metadata = .ok generation)
    {name : String} (hnone : ∀ type ∈ metadata.types, type.name ≠ name) :
    generation.typeWarnings name = [] := by
  have hmiss : (Ordered.firstsBy SourceType.name metadata.types).filter (·.name = name) = [] := by
    rw [List.filter_eq_nil_iff]
    intro type htype hname
    exact hnone type ((Ordered.sublist_firstsBy _ _).mem htype) (of_decide_eq_true hname)
  rw [typeWarnings_of_runWith h, hmiss, List.filterMap_nil]

theorem verbWarnings_of_runWith (h : runWith filter config docs metadata = .ok generation) :
    generation.verbWarnings = (metadata.operations.filter (!·.verb.isSupported)).map
      fun operation ↦
        .unsupportedVerb operation.container operation.name operation.verb.name := by
  obtain ⟨others, hdiagnostics, hothers⟩ := exists_diagnostics_eq h
  have hnone : others.filter Diagnostic.isAboutVerb = [] := by
    rw [List.filter_eq_nil_iff]
    intro warning hwarning
    rcases hothers warning hwarning with ⟨reference, rfl⟩ | ⟨container, shared, rfl⟩ <;> exact nofun
  have htypes : (SourceType.undeclared metadata.types).filter Diagnostic.isAboutVerb = [] := by
    rw [List.filter_eq_nil_iff]
    intro warning hwarning
    obtain ⟨type, -, htype⟩ := List.mem_filterMap.1 hwarning
    obtain ⟨why, -, rfl⟩ := SourceType.undeclared?_eq_some_iff.1 htype
    exact nofun
  rw [verbWarnings, hdiagnostics, List.filter_append, List.filter_append, hnone, htypes,
    List.filter_map]
  simp [Function.comp_def, Diagnostic.isAboutVerb]

/-! ## Operations -/

/-- The functions of a seat come from its operations, in their order. -/
theorem forall₂_seat_of_compileAll {scope : Scope} {operations : List Operation}
    {functions : List Placed} {skipped : List Diagnostic}
    (h : compileAll scope docs operations = .ok (functions, skipped)) (seat : String × String) :
    List.Forall₂ (fun operation placed ↦
        operation.compile scope docs = .ok (.compiled placed.function) ∧
          placed = place scope.config operation placed.function)
      ((operations.filter (·.verb.isSupported)).filter (·.seat scope.config = seat))
      (functions.filter (·.seat scope.config = seat)) := by
  -- an operation and its function have one seat, so the filters keep the same positions
  have hseat : ∀ operation placed,
      (operation.compile scope docs = .ok (.compiled placed.function) ∧
        placed = place scope.config operation placed.function) →
      (decide (operation.seat scope.config = seat) = true ↔
        decide (placed.seat scope.config = seat) = true) := by
    intro operation placed hplace
    rw [hplace.2]
    rfl
  exact List.rel_filter hseat (forall₂_of_compileAll h).1

theorem forall₂_functionsAt_of_runWith (h : runWith filter config docs metadata = .ok generation)
    (seat : String × String) :
    List.Forall₂ (fun operation function ↦ operation.compile (scopeOf config metadata.types) docs =
        .ok (.compiled function.plain))
      ((metadata.operations.filter (·.verb.isSupported)).filter (·.seat config = seat))
      (generation.client.functionsAt seat) := by
  obtain ⟨functions, skipped, hcompile, hclient⟩ := client_eq_amend h
  have hplain : (generation.client.functionsAt seat).map Callable.plain =
      (functions.filter (·.seat config = seat)).map fun placed ↦ placed.function.plain := by
    have hnames : ∀ container : Container,
        (container.disambiguate config.disambiguateByType).name = container.name := fun _ ↦ rfl
    rw [hclient, Client.plain_functionsAt_amend hnames (Client.plain_disambiguate _), assembled,
      Client.functionsAt_build, List.map_map]
    rfl
  have hcompiled : List.Forall₂ (fun operation function ↦
      operation.compile (scopeOf config metadata.types) docs = .ok (.compiled function))
      ((metadata.operations.filter (·.verb.isSupported)).filter (·.seat config = seat))
      ((generation.client.functionsAt seat).map Callable.plain) := by
    rw [hplain, List.forall₂_map_right_iff]
    apply (forall₂_seat_of_compileAll hcompile seat).imp
    intro operation placed hplace
    rw [Operation.plain_of_compile hplace.1]
    exact hplace.1
  rw [List.forall₂_map_right_iff] at hcompiled
  exact hcompiled

/-! ## The whole document -/

theorem accounts_of_runWith (h : runWith filter config docs metadata = .ok generation) :
    Accounts filter config docs metadata generation where
  arranged := arranged_of_runWith h
  declared := by
    intro type kind hfirst hkind
    have hpending : type ∈ SourceType.pending metadata.types :=
      SourceType.mem_pending_iff.2
        ⟨Ordered.mem_firstsBy_iff.2 hfirst, SourceType.isDeclarable_iff.2 ⟨kind, hkind⟩⟩
    refine ⟨declarationsOf_eq_singleton h hpending hkind, ?_⟩
    rw [typeWarnings_of_isFirst h hfirst, SourceType.undeclared?, hkind]
    rfl
  undeclared := by
    intro type why hfirst hwhy
    have hnot : type.isDeclarable = false := by
      rw [SourceType.isDeclarable, hwhy]
      rfl
    refine ⟨declarationsOf_eq_nil h (SourceType.name_ne_of_mem_pending
      (Ordered.mem_firstsBy_iff.2 hfirst) hnot), ?_⟩
    rw [typeWarnings_of_isFirst h hfirst, SourceType.undeclared?, hwhy]
    rfl
  only_types := by
    intro name hnone
    refine ⟨declarationsOf_eq_nil h ?_, typeWarnings_eq_nil h hnone⟩
    intro type htype
    exact hnone type ((Ordered.sublist_firstsBy _ _).mem (SourceType.mem_pending_iff.1 htype).1)
  compiled := by
    intro group hgroup container hcontainer
    have hfunctions := forall₂_functionsAt_of_runWith h (group.name, container.name)
    rwa [(arranged_of_runWith h).functionsAt_eq hgroup hcontainer] at hfunctions
  seated := by
    intro operation hmem hsupported
    apply Client.exists_container_of_functionsAt
    intro hnil
    have hfunctions := forall₂_functionsAt_of_runWith h (operation.seat config)
    rw [hnil, List.forall₂_nil_right_iff, List.filter_eq_nil_iff] at hfunctions
    exact hfunctions operation (List.mem_filter.2 ⟨hmem, hsupported⟩) (decide_eq_true rfl)
  skipped := verbWarnings_of_runWith h

/-- A type that is repeated, one that is not declared, and a method that is not supported. -/
def mixedMetadata : Metadata :=
  { types := [
      { name := "Shop.Models.Line", space := "Shop.Models", kind := .custom },
      { name := "System.Int32", space := "System", kind := .primitive .int32 },
      { name := "Shop.Models.Line", space := "Shop.Models", kind := .enumeration }]
    operations := [
      { name := "Get", container := "Shop.CartController", verb := .get, route := "cart" },
      { name := "Trace"
        container := "Shop.CartController"
        verb := .other "TRACE"
        route := "cart" },
      { name := "Get", container := "Shop.CartController", verb := .post, route := "cart" }] }

theorem accounts_mixedMetadata : ∃ generation,
    runWith CherryPick.all.filter {} ({} : Docs) mixedMetadata = .ok generation ∧
      Accounts CherryPick.all.filter {} ({} : Docs) mixedMetadata generation :=
  ⟨_, rfl, accounts_of_runWith rfl⟩

end Generation

end TypedClient
