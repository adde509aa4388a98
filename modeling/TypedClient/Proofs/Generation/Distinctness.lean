import TypedClient.Proofs.Client.Inheritance
import TypedClient.Proofs.Generation.Account

/-!
# Names that designate one declaration

Declarations go by short names, and a reference means every declaration of its
namespace that goes by its name. There is always one, and there is one only as
long as no two pending types of a namespace have their short name in common,
which plain names never have.
-/

namespace TypedClient

namespace Client

variable {client : Client} {config : Config}

/-- No two declarations of a namespace share their name. -/
def Distinct (client : Client) : Prop :=
  ∀ group ∈ client, (group.declarations.map Declaration.name).Nodup

/-- The source types of the declarations that go by a namespace and a name, one for each of these
declarations. -/
def designated (client : Client) (target : String × String) : List String :=
  (client.placements.filter fun pair ↦ (pair.1, pair.2.name) = target).map (·.2.sourceName)

theorem declared_eq (client : Client) :
    client.declared = client.placements.map fun pair ↦ (pair.1, pair.2.name) := by
  simp [declared, placements, List.map_flatMap, Function.comp_def]

theorem Arranged.distinct_iff (h : client.Arranged config) :
    client.Distinct ↔ client.declared.Nodup := by
  have hdisjoint : client.Pairwise fun left right ↦ List.Disjoint
      (left.declarations.map fun declaration ↦ (left.name, declaration.name))
      (right.declarations.map fun declaration ↦ (right.name, declaration.name)) := by
    apply h.ascending.imp
    intro left right hlt target hleft hright
    obtain ⟨_, -, rfl⟩ := List.mem_map.1 hleft
    obtain ⟨_, -, heq⟩ := List.mem_map.1 hright
    rw [(Prod.mk.inj heq).1] at hlt
    exact String.lt_irrefl _ hlt
  have hgroup : ∀ group : Namespace,
      (group.declarations.map fun declaration ↦ (group.name, declaration.name)).Nodup ↔
        (group.declarations.map Declaration.name).Nodup := by
    intro group
    have hpairs : (group.declarations.map fun declaration ↦ (group.name, declaration.name)) =
        (group.declarations.map Declaration.name).map (Prod.mk group.name) := by
      rw [List.map_map]
      rfl
    rw [hpairs, List.nodup_map_iff fun _ _ heq ↦ (Prod.mk.inj heq).2]
  rw [declared, List.nodup_flatMap, and_iff_left hdisjoint]
  simp only [hgroup, Distinct]

theorem mem_designated_iff {space name sourceName : String} :
    sourceName ∈ client.designated (space, name) ↔ client.Designates space name sourceName := by
  simp only [designated, Designates, ← mem_placements_iff, List.mem_map, List.mem_filter,
    decide_eq_true_eq, Prod.mk.injEq]
  constructor
  · intro hexists
    obtain ⟨⟨_, declaration⟩, ⟨hmem, rfl, rfl⟩, rfl⟩ := hexists
    exact ⟨declaration, hmem, rfl, rfl⟩
  · intro hexists
    obtain ⟨declaration, hmem, rfl, rfl⟩ := hexists
    exact ⟨(space, declaration), ⟨hmem, rfl, rfl⟩, rfl⟩

theorem designated_ne_nil {space name : String} (h : (space, name) ∈ client.declared) :
    client.designated (space, name) ≠ [] := by
  obtain ⟨declaration, hdeclares, hname⟩ := mem_declared_iff.1 h
  exact List.ne_nil_of_mem (mem_designated_iff.2 ⟨declaration, hdeclares, hname, rfl⟩)

theorem exists_designated_eq_singleton (hnodup : client.declared.Nodup) {target : String × String}
    (h : target ∈ client.declared) : ∃ sourceName, client.designated target = [sourceName] := by
  rw [declared_eq] at h hnodup
  obtain ⟨pair, hpair, rfl⟩ := List.mem_map.1 h
  refine ⟨pair.2.sourceName, ?_⟩
  rw [designated, Ordered.filter_key_eq_singleton hnodup hpair, List.map_singleton]

end Client

namespace Generation

variable {filter : MemberFilter} {config : Config} {docs : DocSource} {metadata : Metadata}
  {generation : Generation}

/-- Nothing dangles in the client of a run. -/
theorem closed_of_runWith (h : runWith filter config docs metadata = .ok generation) :
    generation.client.Closed := by
  obtain ⟨functions, skipped, externals, -, hlink, hclient⟩ := runWith_eq_ok h
  rw [hclient]
  exact Client.closed_disambiguate (Client.exists_link_eq_ok_iff.1 ⟨externals, hlink⟩)

/-- The names of the declarations are those that the pending types are declared as. -/
theorem perm_names_of_runWith (h : runWith filter config docs metadata = .ok generation) :
    (generation.client.placements.map fun pair ↦
        ((pair.1, pair.2.name), pair.2.sourceName)).Perm
      ((SourceType.pending metadata.types).map fun type ↦ (type.declaredAs config, type.name)) := by
  have hnames : (Client.declarations (scopeOf config metadata.types) filter docs
      (SourceType.pending metadata.types)).map (fun pair ↦
        ((config.targetSpace pair.1, pair.2.name), pair.2.sourceName)) =
      (SourceType.pending metadata.types).map fun type ↦ (type.declaredAs config, type.name) :=
    Client.map_declarations_pending (fun _ _ ↦ rfl) _
  have hperm := (perm_placements_of_runWith h).map fun pair ↦
    ((pair.1, pair.2.name), pair.2.sourceName)
  rw [List.map_map] at hperm
  simp only [Function.comp_def, Declaration.name_link, Declaration.sourceName_link] at hperm
  rwa [hnames] at hperm

theorem perm_declared_of_runWith (h : runWith filter config docs metadata = .ok generation) :
    generation.client.declared.Perm
      ((SourceType.pending metadata.types).map (·.declaredAs config)) := by
  have hperm := (perm_names_of_runWith h).map Prod.fst
  rw [Client.declared_eq]
  rwa [List.map_map, List.map_map] at hperm

/-- A reference designates the pending types that are declared as what it says. -/
theorem perm_designated_of_runWith (h : runWith filter config docs metadata = .ok generation)
    (target : String × String) : (generation.client.designated target).Perm
      (((SourceType.pending metadata.types).filter (·.declaredAs config = target)).map
        SourceType.name) := by
  have hfiltered := (perm_names_of_runWith h).filter fun entry ↦ decide (entry.1 = target)
  have hperm := hfiltered.map Prod.snd
  rwa [List.filter_map, List.filter_map, List.map_map, List.map_map] at hperm

theorem distinct_iff_nodup (h : runWith filter config docs metadata = .ok generation) :
    generation.client.Distinct ↔
      ((SourceType.pending metadata.types).map (·.declaredAs config)).Nodup := by
  rw [(arranged_of_runWith h).distinct_iff]
  exact (perm_declared_of_runWith h).nodup_iff

/-- The declarations of a run are told apart by their names exactly if the pending types are. A
reference into the client always designates a declaration, and then no second one. -/
theorem distinct_of_runWith (h : runWith filter config docs metadata = .ok generation) :
    (generation.client.Distinct ↔
      ((SourceType.pending metadata.types).map (·.declaredAs config)).Nodup) ∧
    ∀ address context space name args,
      generation.client.at? address = some ⟨context, .named (some space) name args⟩ →
        generation.client.designated (space, name) ≠ [] ∧
        (generation.client.designated (space, name)).Perm
          (((SourceType.pending metadata.types).filter
            (·.declaredAs config = (space, name))).map SourceType.name) ∧
        (generation.client.Distinct →
          ∃ sourceName, generation.client.designated (space, name) = [sourceName]) := by
  refine ⟨distinct_iff_nodup h, ?_⟩
  intro address context space name args hat
  have hdeclared : (space, name) ∈ generation.client.declared := by
    rw [Client.mem_declared_iff]
    by_contra hmiss
    exact closed_of_runWith h address context space name ⟨⟨args, hat⟩, hmiss⟩
  refine ⟨Client.designated_ne_nil hdeclared, perm_designated_of_runWith h _, ?_⟩
  intro hdistinct
  rw [(arranged_of_runWith h).distinct_iff] at hdistinct
  exact Client.exists_designated_eq_singleton hdistinct hdeclared

/-- Plain names never meet. -/
theorem distinct_of_plain (h : runWith filter config docs metadata = .ok generation)
    (hplain : ∀ type ∈ SourceType.pending metadata.types, Name.Plain type.name type.space) :
    generation.client.Distinct := by
  rw [distinct_iff_nodup h]
  have hnames := SourceType.nodup_names_pending metadata.types
  apply hnames.of_map.map_on
  intro left hleft right hright heq
  obtain ⟨hspace, hshort⟩ := Prod.mk.inj heq
  have hplainLeft := hplain left hleft
  rw [config.targetSpace_injective hspace] at hshort hplainLeft
  exact List.inj_on_of_nodup_map hnames hleft hright
    (hplainLeft.eq_of_short_eq (hplain right hright) hshort)

/-! ## A generic record beside a plain one -/

def pageMetadata : Metadata :=
  { types := [pageType, genericPageType]
    operations := [{
      name := "Get"
      container := "Shop.PageController"
      verb := .get
      route := "page"
      response := some pageType }] }

theorem runWith_pageMetadata :
    ∃ generation, runWith CherryPick.all.filter {} ({} : Docs) pageMetadata = .ok generation ∧
      generation.client.at? [0, 1, 0, 0, 0] = some ⟨"Shop.Client.PageClient.Get (return)",
        .named (some "Shop.Models.Client") "Page" []⟩ :=
  ⟨_, rfl, rfl⟩

/-- What the function returns is declared twice. -/
theorem designated_pageMetadata : ∃ generation,
    runWith CherryPick.all.filter {} ({} : Docs) pageMetadata = .ok generation ∧
      (generation.client.designated ("Shop.Models.Client", "Page")).Perm
        [pageType.name, genericPageType.name] := by
  obtain ⟨generation, hrun, hat⟩ := runWith_pageMetadata
  exact ⟨generation, hrun, ((distinct_of_runWith hrun).2 _ _ _ _ _ hat).2.1⟩

/-- Two declarations of one namespace may well share their name. -/
theorem not_forall_distinct : ¬ ∀ (filter : MemberFilter) (config : Config) (docs : DocSource)
    (metadata : Metadata) (generation : Generation),
    runWith filter config docs metadata = .ok generation → generation.client.Distinct := by
  intro hall
  obtain ⟨generation, hrun, -⟩ := runWith_pageMetadata
  have hnodup := (distinct_iff_nodup hrun).1 (hall _ _ _ _ _ hrun)
  revert hnodup
  decide

end Generation

end TypedClient
