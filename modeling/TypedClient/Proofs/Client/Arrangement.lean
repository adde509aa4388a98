import TypedClient.Proofs.Client.Closure
import TypedClient.Proofs.Grouping

/-!
# How a client is arranged

Namespaces stand in ascending order of their names, no two of which are equal,
and so do the containers of a namespace; none of them is empty. Declarations
stand in ascending order as well. Every declaration and every function that the
client was put together from stands in one place, which its source namespace
and its container determine, and functions of one container keep their order.
Linking and renaming change what stands in a place, and leave the places.
-/

namespace TypedClient

/-- The function under the name of its action. -/
def Callable.plain (function : Callable) : Callable :=
  { function with name := function.sourceName }

/-- Client namespace and name of the container that a function belongs to. -/
def Placed.seat (config : Config) (placed : Placed) : String × String :=
  (config.targetSpace placed.space, placed.container)

namespace Client

/-- Every declaration, with the namespace it stands in. -/
def placements (client : Client) : List (String × Declaration) :=
  client.flatMap fun group ↦ group.declarations.map (Prod.mk group.name)

/-- The functions that stand under a namespace and a container of these names. -/
def functionsAt (client : Client) (seat : String × String) : List Callable :=
  (client.filter (·.name = seat.1)).flatMap fun group ↦
    (group.containers.filter (·.name = seat.2)).flatMap Container.functions

/-- Namespaces, declarations and containers are in order, and nothing in the client is empty. -/
structure Arranged (config : Config) (client : Client) : Prop where
  ascending : client.Pairwise (·.name < ·.name)
  name_eq : ∀ group ∈ client, group.name = config.targetSpace group.sourceName
  nonempty : ∀ group ∈ client, group.declarations ≠ [] ∨ group.containers ≠ []
  declarations_ascending : ∀ group ∈ client, group.declarations.Pairwise (·.name ≤ ·.name)
  containers_ascending : ∀ group ∈ client, group.containers.Pairwise (·.name < ·.name)
  functions_nonempty : ∀ group ∈ client, ∀ container ∈ group.containers, container.functions ≠ []

variable {client : Client} {config : Config} {scope : Scope}

theorem mem_placements_iff {space : String} {declaration : Declaration} :
    (space, declaration) ∈ client.placements ↔ client.Declares space declaration := by
  simp only [placements, Declares, List.mem_flatMap, List.mem_map, Prod.mk.injEq]
  constructor
  · intro hexists
    obtain ⟨group, hgroup, _, hmem, hname, rfl⟩ := hexists
    exact ⟨group, hgroup, hname, hmem⟩
  · intro hexists
    obtain ⟨group, hgroup, hname, hmem⟩ := hexists
    exact ⟨group, hgroup, declaration, hmem, hname, rfl⟩

/-- The functions under the names of a container are those of the container. -/
theorem Arranged.functionsAt_eq (h : client.Arranged config) {group : Namespace}
    (hgroup : group ∈ client) {container : Container}
    (hcontainer : container ∈ group.containers) :
    client.functionsAt (group.name, container.name) = container.functions := by
  have hcontainers := Ordered.filter_key_eq_singleton
    (Ordered.nodup_of_pairwise_lt (h.containers_ascending group hgroup)) hcontainer
  have hgroups := Ordered.filter_key_eq_singleton (Ordered.nodup_of_pairwise_lt h.ascending) hgroup
  rw [functionsAt, hgroups, List.flatMap_singleton, hcontainers, List.flatMap_singleton]

theorem exists_container_of_functionsAt {seat : String × String}
    (h : client.functionsAt seat ≠ []) :
    ∃ group ∈ client, ∃ container ∈ group.containers, (group.name, container.name) = seat := by
  obtain ⟨function, hfunction⟩ := List.exists_mem_of_ne_nil _ h
  obtain ⟨group, hgroup, hfunction⟩ := List.mem_flatMap.1 hfunction
  obtain ⟨container, hcontainer, -⟩ := List.mem_flatMap.1 hfunction
  obtain ⟨hgroup, hspace⟩ := List.mem_filter.1 hgroup
  obtain ⟨hcontainer, hname⟩ := List.mem_filter.1 hcontainer
  exact ⟨group, hgroup, container, hcontainer,
    Prod.ext (of_decide_eq_true hspace) (of_decide_eq_true hname)⟩

/-! ## Assembling -/

theorem functionsAt_containersOf (functions : List Placed) (name : String) :
    ((containersOf functions).filter (·.name = name)).flatMap Container.functions =
      (functions.filter (·.container = name)).map Placed.function := by
  let firsts := Ordered.firstsBy Placed.container (Ordered.sortBy Placed.container functions)
  let group (name : String) := (functions.filter (·.container = name)).map Placed.function
  have hnodup : (firsts.map Placed.container).Nodup := Ordered.nodup_map_firstsBy _ _
  rw [containersOf, List.filter_map, List.flatMap_map]
  apply Ordered.flatMap_filter_key group hnodup
  intro hmiss
  rw [List.map_eq_nil_iff, List.filter_eq_nil_iff]
  intro placed hplaced hname
  obtain ⟨first, hfirst, hkey⟩ := Ordered.exists_mem_firstsBy Placed.container
    ((Ordered.perm_sortBy Placed.container functions).mem_iff.2 hplaced)
  exact hmiss (List.mem_map.2 ⟨first, hfirst, hkey.trans (of_decide_eq_true hname)⟩)

/-- Inside a namespace, the container of a function determines its seat. -/
theorem filter_container (config : Config) (functions : List Placed) (space container : String) :
    (functions.filter (·.space = space)).filter (·.container = container) =
      functions.filter (·.seat config = (config.targetSpace space, container)) := by
  rw [List.filter_filter]
  apply List.filter_congr
  intro placed _
  simp [Placed.seat, config.targetSpace_injective.eq_iff, Bool.and_comm]

theorem filter_name (config : Config) (declarations : List (String × Declaration))
    (space name : String) :
    ((declarations.filter (·.1 = space)).map Prod.snd).filter (·.name = name) =
      (declarations.filter fun pair ↦ (config.targetSpace pair.1, pair.2.name) =
        (config.targetSpace space, name)).map Prod.snd := by
  rw [List.filter_map, List.filter_filter]
  congr 1
  apply List.filter_congr
  intro pair _
  simp [config.targetSpace_injective.eq_iff, Bool.and_comm]

theorem functionsAt_build (config : Config) (declarations : List (String × Declaration))
    (functions : List Placed) (seat : String × String) :
    (build config declarations functions).functionsAt seat =
      (functions.filter (·.seat config = seat)).map Placed.function := by
  obtain ⟨space, container⟩ := seat
  let group (name : String) :=
    (functions.filter fun placed ↦ placed.seat config = (name, container)).map Placed.function
  -- inside a namespace the container is looked up first
  have hgroup : ∀ source, ((namespaceOf config declarations functions source).containers.filter
      (·.name = container)).flatMap Container.functions = group (config.targetSpace source) := by
    intro source
    have hcontainers : (namespaceOf config declarations functions source).containers =
        containersOf (functions.filter (·.space = source)) := rfl
    rw [hcontainers, functionsAt_containersOf, filter_container config]
  rw [functionsAt, build_eq, Ordered.filter_sortBy, List.filter_map, List.flatMap_map]
  simp only [hgroup]
  apply Ordered.flatMap_filter_key group (nodup_targetSpace_spaces config declarations functions)
  intro hmiss
  rw [List.map_eq_nil_iff, List.filter_eq_nil_iff]
  intro placed hplaced hseat
  apply hmiss
  rw [← (Prod.mk.inj (of_decide_eq_true hseat)).1]
  apply List.mem_map_of_mem
  rw [spaces, Ordered.mem_ascending]
  exact List.mem_append_right _ (List.mem_map_of_mem hplaced)

theorem perm_placements_build (config : Config) (declarations : List (String × Declaration))
    (functions : List Placed) :
    (build config declarations functions).placements.Perm
      (declarations.map fun pair ↦ (config.targetSpace pair.1, pair.2)) := by
  let place (pair : String × Declaration) := (config.targetSpace pair.1, pair.2)
  have hgroup : ∀ source,
      ((namespaceOf config declarations functions source).declarations.map
        (Prod.mk (config.targetSpace source))).Perm
      ((declarations.filter (·.1 = source)).map place) := by
    intro source
    have hplace : (declarations.filter (·.1 = source)).map place =
        ((declarations.filter (·.1 = source)).map Prod.snd).map
          (Prod.mk (config.targetSpace source)) := by
      rw [List.map_map]
      apply List.map_congr_left
      intro pair hpair
      have hsource : pair.1 = source := of_decide_eq_true (List.mem_filter.1 hpair).2
      rw [Function.comp_apply, ← hsource]
    rw [hplace]
    exact (Ordered.perm_sortBy _ _).map _
  -- no declaration is left over, since its namespace is among those that are built
  have hspaces : ∀ pair ∈ declarations, pair.1 ∈ spaces declarations functions := by
    intro pair hpair
    rw [spaces, Ordered.mem_ascending]
    exact List.mem_append_left _ (List.mem_map_of_mem hpair)
  have hunsorted := (Ordered.perm_sortBy Namespace.name ((spaces declarations functions).map
    (namespaceOf config declarations functions))).flatMap_right
      fun group ↦ group.declarations.map (Prod.mk group.name)
  rw [List.flatMap_map] at hunsorted
  have hgroups := List.Perm.flatMap_left (spaces declarations functions)
    fun source _ ↦ hgroup source
  rw [← List.map_flatMap] at hgroups
  have htogether := Ordered.perm_flatMap_filter (nodup_spaces declarations functions) hspaces
  rw [build_eq]
  exact hunsorted.trans (hgroups.trans (htogether.map place))

theorem functions_ne_nil_of_mem_containersOf {functions : List Placed} {container : Container}
    (h : container ∈ containersOf functions) : container.functions ≠ [] := by
  obtain ⟨first, hfirst, rfl⟩ := List.mem_map.1 h
  have hmem := Ordered.mem_sortBy.1 ((Ordered.sublist_firstsBy _ _).mem hfirst)
  have hkept : first ∈ functions.filter (·.container = first.container) :=
    List.mem_filter.2 ⟨hmem, decide_eq_true rfl⟩
  exact List.ne_nil_of_mem (List.mem_map_of_mem hkept)

theorem arranged_build (config : Config) (declarations : List (String × Declaration))
    (functions : List Placed) : (build config declarations functions).Arranged config := by
  have hgroup : ∀ group ∈ build config declarations functions,
      ∃ source ∈ spaces declarations functions,
        group = namespaceOf config declarations functions source := by
    intro group hmem
    rw [build_eq, Ordered.mem_sortBy] at hmem
    obtain ⟨source, hsource, rfl⟩ := List.mem_map.1 hmem
    exact ⟨source, hsource, rfl⟩
  constructor
  case ascending =>
    rw [build_eq]
    apply Ordered.pairwise_lt_of_nodup (Ordered.pairwise_sortBy _ _)
    have hperm := (Ordered.perm_sortBy Namespace.name ((spaces declarations functions).map
      (namespaceOf config declarations functions))).map Namespace.name
    rw [hperm.nodup_iff, List.map_map]
    exact nodup_targetSpace_spaces config declarations functions
  case name_eq =>
    intro group hmem
    obtain ⟨source, -, rfl⟩ := hgroup group hmem
    rfl
  case nonempty =>
    intro group hmem
    obtain ⟨source, hsource, rfl⟩ := hgroup group hmem
    rw [spaces, Ordered.mem_ascending, List.mem_append] at hsource
    rcases hsource with hsource | hsource
    · obtain ⟨pair, hpair, rfl⟩ := List.mem_map.1 hsource
      have hkept : pair ∈ declarations.filter (·.1 = pair.1) :=
        List.mem_filter.2 ⟨hpair, decide_eq_true rfl⟩
      left
      exact List.ne_nil_of_mem (Ordered.mem_sortBy.2 (List.mem_map_of_mem hkept))
    · obtain ⟨placed, hplaced, rfl⟩ := List.mem_map.1 hsource
      have hkept : placed ∈ functions.filter (·.space = placed.space) :=
        List.mem_filter.2 ⟨hplaced, decide_eq_true rfl⟩
      right
      exact mt containersOf_eq_nil_iff.1 (List.ne_nil_of_mem hkept)
  case declarations_ascending =>
    intro group hmem
    obtain ⟨source, -, rfl⟩ := hgroup group hmem
    exact Ordered.pairwise_sortBy _ _
  case containers_ascending =>
    intro group hmem
    obtain ⟨source, -, rfl⟩ := hgroup group hmem
    exact containers_ascending_containersOf _
  case functions_nonempty =>
    intro group hmem container hcontainer
    obtain ⟨source, -, rfl⟩ := hgroup group hmem
    exact functions_ne_nil_of_mem_containersOf hcontainer

/-! ## Order of the parts -/

theorem containersOf_congr {functions others : List Placed}
    (h : ∀ name, functions.filter (·.container = name) = others.filter (·.container = name)) :
    containersOf functions = containersOf others := by
  simp only [containersOf, Ordered.sortBy_congr h, h]

/-- Where no two declarations share their namespace and name, only the order of functions inside
a container counts. -/
theorem build_congr {left right : List (String × Declaration)} {functions others : List Placed}
    (hperm : left.Perm right)
    (hnodup : (left.map fun pair ↦ (config.targetSpace pair.1, pair.2.name)).Nodup)
    (h : ∀ seat, functions.filter (·.seat config = seat) = others.filter (·.seat config = seat)) :
    build config left functions = build config right others := by
  have hspaces : spaces left functions = spaces right others := by
    apply Ordered.ascending_congr
    intro space
    simp only [List.mem_append, List.mem_map, hperm.mem_iff, Ordered.mem_iff_of_filter_eq h]
  have hgroup : namespaceOf config left functions = namespaceOf config right others := by
    funext space
    have hdeclarations : ∀ name,
        ((left.filter (·.1 = space)).map Prod.snd).filter (·.name = name) =
          ((right.filter (·.1 = space)).map Prod.snd).filter (·.name = name) := by
      intro name
      rw [filter_name config, filter_name config, Ordered.filter_key_eq_of_perm hperm hnodup]
    have hcontainers : ∀ container,
        (functions.filter (·.space = space)).filter (·.container = container) =
          (others.filter (·.space = space)).filter (·.container = container) := by
      intro container
      rw [filter_container config, filter_container config, h]
    rw [namespaceOf, namespaceOf, Ordered.sortBy_congr hdeclarations,
      containersOf_congr hcontainers]
  rw [build_eq, build_eq, hspaces, hgroup]

/-! ## Linking and renaming -/

/-- The client with each declaration and each container replaced in its place. -/
def amend (f : Declaration → Declaration) (g : Container → Container) (client : Client) : Client :=
  client.map fun group ↦
    { group with
      declarations := group.declarations.map f
      containers := group.containers.map g }

theorem disambiguate_linkBases (byType : Bool) (scope : Scope) (client : Client) :
    ((client.linkBases scope).disambiguate byType).1 =
      client.amend (Declaration.link scope) (Container.disambiguate byType) := by
  simp [disambiguate, mapContainers, linkBases, amend]

theorem placements_amend (f : Declaration → Declaration) (g : Container → Container)
    (client : Client) :
    (client.amend f g).placements = client.placements.map fun pair ↦ (pair.1, f pair.2) := by
  simp [placements, amend, List.flatMap_map, List.map_flatMap, Function.comp_def]

theorem plain_functionsAt_amend {f : Declaration → Declaration} {g : Container → Container}
    (hname : ∀ container, (g container).name = container.name)
    (hplain : ∀ container, (g container).functions.map Callable.plain =
      container.functions.map Callable.plain) (client : Client) (seat : String × String) :
    ((client.amend f g).functionsAt seat).map Callable.plain =
      (client.functionsAt seat).map Callable.plain := by
  simp [functionsAt, amend, List.filter_map, List.flatMap_map, List.map_flatMap, Function.comp_def,
    hname, hplain]

theorem Arranged.amend (h : client.Arranged config) {f : Declaration → Declaration}
    {g : Container → Container} (hf : ∀ declaration, (f declaration).name = declaration.name)
    (hname : ∀ container, (g container).name = container.name)
    (hplain : ∀ container, (g container).functions.map Callable.plain =
      container.functions.map Callable.plain) : (client.amend f g).Arranged config where
  ascending := List.pairwise_map.2 h.ascending
  name_eq := by
    intro _ hmem
    obtain ⟨group, hgroup, rfl⟩ := List.mem_map.1 hmem
    exact h.name_eq group hgroup
  nonempty := by
    intro _ hmem
    obtain ⟨group, hgroup, rfl⟩ := List.mem_map.1 hmem
    rw [ne_eq, ne_eq, List.map_eq_nil_iff, List.map_eq_nil_iff]
    exact h.nonempty group hgroup
  declarations_ascending := by
    intro _ hmem
    obtain ⟨group, hgroup, rfl⟩ := List.mem_map.1 hmem
    rw [List.pairwise_map]
    simpa only [hf] using h.declarations_ascending group hgroup
  containers_ascending := by
    intro _ hmem
    obtain ⟨group, hgroup, rfl⟩ := List.mem_map.1 hmem
    rw [List.pairwise_map]
    simpa only [hname] using h.containers_ascending group hgroup
  functions_nonempty := by
    intro _ hmem _ hamended hnil
    obtain ⟨group, hgroup, rfl⟩ := List.mem_map.1 hmem
    obtain ⟨container, hcontainer, rfl⟩ := List.mem_map.1 hamended
    apply h.functions_nonempty group hgroup container hcontainer
    rw [← List.map_eq_nil_iff (f := Callable.plain), ← hplain, hnil, List.map_nil]

theorem plain_rename (byType : Bool) (functions : List Callable) (function : Callable) :
    (Container.rename byType functions function).plain = function.plain := by
  unfold Container.rename
  split <;> rfl

theorem plain_disambiguate (byType : Bool) (container : Container) :
    (container.disambiguate byType).functions.map Callable.plain =
      container.functions.map Callable.plain := by
  rw [Container.disambiguate, Container.renameShared_eq_map, List.map_map]
  apply List.map_congr_left
  intro function _
  exact plain_rename byType container.functions function

end Client

end TypedClient
