import Mathlib.Data.List.Nodup
import TypedClient.Client.Assembly
import TypedClient.Proofs.Gathering

/-!
# Merging declarations and containers

Declarations are gathered under client namespaces, and containers under source
namespaces. Different source namespaces have different client namespaces,
whatever the suffix is, so all that is merged under one client namespace comes
from one source namespace. The client is therefore the one that makes each source
namespace into a client namespace by itself, from the declarations and the
functions that come from it.
-/

namespace TypedClient

/-- The suffix can be read off, also behind the empty namespace, which drops leading dots of it. -/
theorem Config.targetSpace_injective (config : Config) : Function.Injective config.targetSpace := by
  have hlength : ∀ space : String, space ≠ "" →
      config.targetSpace "" ≠ config.targetSpace space := by
    intro space hspace heq
    rw [targetSpace, targetSpace, if_pos rfl, if_neg hspace] at heq
    have hlists := congrArg (fun text ↦ text.toList.length) heq
    have hdrop := (List.dropWhile_sublist (l := config.namespaceSuffix.toList)
      (· == '.')).length_le
    have hpos : space.toList.length ≠ 0 := fun hzero ↦
      hspace (String.toList_eq_nil_iff.1 (List.length_eq_zero_iff.1 hzero))
    simp only [String.toList_ofList, String.toList_append, List.length_append] at hlists
    omega
  intro left right h
  by_cases hleft : left = ""
  · by_cases hright : right = ""
    · rw [hleft, hright]
    · exact absurd (hleft ▸ h) (hlength right hright)
  · by_cases hright : right = ""
    · exact absurd (hright ▸ h).symm (hlength left hleft)
    · rw [targetSpace, targetSpace, if_neg hleft, if_neg hright] at h
      have hlists := congrArg String.toList h
      rw [String.toList_append, String.toList_append] at hlists
      exact String.toList_injective (List.append_cancel_right hlists)

namespace ContainerKey

instance isStrictTotalOrder : IsStrictTotalOrder ContainerKey (· < ·) where
  trichotomous := by
    intro left right hlt hgt
    obtain ⟨hspaceLt, hnameLt⟩ := not_or.1 hlt
    obtain ⟨hspaceGt, hnameGt⟩ := not_or.1 hgt
    have hspace := Std.Trichotomous.trichotomous left.space right.space hspaceLt hspaceGt
    have hname := Std.Trichotomous.trichotomous left.name right.name
      (fun h ↦ hnameLt ⟨hspace, h⟩) (fun h ↦ hnameGt ⟨hspace.symm, h⟩)
    cases left
    cases right
    congr
  irrefl := by
    intro key h
    rcases h with h | h
    · exact String.lt_irrefl _ h
    · exact String.lt_irrefl _ h.2
  trans := by
    intro first second third hfirst hsecond
    rcases hfirst with hfirst | ⟨hspace, hfirst⟩
    · left
      rcases hsecond with hsecond | hsecond
      · exact String.lt_trans hfirst hsecond
      · exact hsecond.1 ▸ hfirst
    · rcases hsecond with hsecond | ⟨hspace', hsecond⟩
      · left
        exact hspace ▸ hsecond
      · right
        exact ⟨hspace.trans hspace', String.lt_trans hfirst hsecond⟩

end ContainerKey

namespace Client

/-! ## One source namespace after the other -/

/-- The containers of functions that come from one source namespace. -/
def containersOf (functions : List Placed) : List Container :=
  (Ordered.firstsBy Placed.container (Ordered.sortBy Placed.container functions)).map fun first ↦
    { name := first.container
      sourceName := first.sourceContainer
      functions := (functions.filter (·.container = first.container)).map Placed.function }

/-- The namespace made of everything that comes from one source namespace. -/
def namespaceOf (config : Config) (declarations : List (String × Declaration))
    (functions : List Placed) (space : String) : Namespace :=
  { name := config.targetSpace space
    sourceName := space
    declarations := Ordered.sortBy Declaration.name
      ((declarations.filter (·.1 = space)).map Prod.snd)
    containers := containersOf (functions.filter (·.space = space)) }

/-- The source namespaces of what a client is put together from. -/
def spaces (declarations : List (String × Declaration)) (functions : List Placed) : List String :=
  Ordered.ascending (declarations.map Prod.fst ++ functions.map Placed.space)

variable {config : Config} {declarations : List (String × Declaration)} {functions : List Placed}

theorem nodup_spaces (declarations : List (String × Declaration)) (functions : List Placed) :
    (spaces declarations functions).Nodup :=
  Ordered.nodup_ascending _

/-- No two source namespaces share their client namespace. -/
theorem nodup_targetSpace_spaces (config : Config) (declarations : List (String × Declaration))
    (functions : List Placed) :
    ((spaces declarations functions).map config.targetSpace).Nodup :=
  (nodup_spaces declarations functions).map config.targetSpace_injective

theorem mem_spaces_iff {space : String} : space ∈ spaces declarations functions ↔
    declarations.filter (·.1 = space) ≠ [] ∨ functions.filter (·.space = space) ≠ [] := by
  rw [spaces, Ordered.mem_ascending, List.mem_append, List.mem_map, List.mem_map]
  simp only [ne_eq, List.filter_eq_nil_iff, not_forall, decide_eq_true_eq, not_not, exists_prop]

theorem containers_ascending_containersOf (functions : List Placed) :
    (containersOf functions).Pairwise (·.name < ·.name) := by
  rw [containersOf, List.pairwise_map]
  apply Ordered.pairwise_lt_of_nodup
  · exact (Ordered.pairwise_sortBy _ _).sublist (Ordered.sublist_firstsBy _ _)
  · exact Ordered.nodup_map_firstsBy _ _

theorem containersOf_eq_nil_iff {functions : List Placed} :
    containersOf functions = [] ↔ functions = [] := by
  constructor
  · intro hnone
    apply List.eq_nil_iff_forall_not_mem.2
    intro placed hplaced
    obtain ⟨first, hfirst, -⟩ := Ordered.exists_mem_firstsBy Placed.container
      (Ordered.mem_sortBy.2 hplaced)
    exact List.ne_nil_of_mem hfirst (List.map_eq_nil_iff.1 hnone)
  · rintro rfl
    rfl

theorem filter_containersOf (functions : List Placed) (name : String) :
    (containersOf functions).filter (·.name = name) =
      match functions.filter (·.container = name) with
      | [] => []
      | first :: rest =>
        [{ name := first.container
           sourceName := first.sourceContainer
           functions := (first :: rest).map Placed.function }] := by
  let containerFor (first : Placed) : Container :=
    { name := first.container
      sourceName := first.sourceContainer
      functions := (functions.filter (·.container = first.container)).map Placed.function }
  have hfirsts : (containersOf functions).filter (·.name = name) =
      (functions.filter (·.container = name)).head?.toList.map containerFor := by
    rw [containersOf, List.filter_map, ← Ordered.filter_sortBy, ← Ordered.filter_firstsBy]
    rfl
  rw [hfirsts]
  cases hgroup : functions.filter (·.container = name) with
  | nil => rfl
  | cons first rest =>
    have hname : first.container = name := Ordered.key_eq_of_filter_eq_cons hgroup
    simp [containerFor, hname, hgroup]

/-! ## Gathered containers -/

theorem foldl_addFunction (functions : List Placed) (container : Container) :
    functions.foldl (fun container placed ↦ container.addFunction placed.function) container =
      { container with functions := container.functions ++ functions.map Placed.function } :=
  Ordered.foldl_concat (fun members ↦ { container with functions := members }) Placed.function
    (fun _ _ ↦ rfl) functions container.functions

theorem name_of_mem_containersByKey {entry : ContainerKey × Container}
    (h : entry ∈ containersByKey functions) : entry.2.name = entry.1.name := by
  obtain ⟨first, rest, hgroup, heq⟩ := Ordered.exists_of_mem_gather h
  have hkey : first.key = entry.1 := Ordered.key_eq_of_filter_eq_cons hgroup
  rw [heq, foldl_addFunction, ← hkey]
  rfl

theorem filter_containersByKey (functions : List Placed) (key : ContainerKey) :
    ((containersByKey functions).filter (·.1 = key)).map Prod.snd =
      match functions.filter (·.key = key) with
      | [] => []
      | first :: rest =>
        [{ name := first.container
           sourceName := first.sourceContainer
           functions := (first :: rest).map Placed.function }] := by
  rw [containersByKey, Ordered.filter_gather]
  cases functions.filter (·.key = key) with
  | nil => rfl
  | cons first rest =>
    dsimp only
    rw [foldl_addFunction]
    rfl

/-- The containers of a source namespace stand in the order of their names. -/
theorem map_filter_containersByKey (functions : List Placed) (space : String) :
    ((containersByKey functions).filter (·.1.space = space)).map Prod.snd =
      containersOf (functions.filter (·.space = space)) := by
  have hnames : ∀ name, (((containersByKey functions).filter (·.1.space = space)).map
      Prod.snd).filter (·.name = name) =
        (containersOf (functions.filter (·.space = space))).filter (·.name = name) := by
    intro name
    have hentries : ((containersByKey functions).filter (·.1.space = space)).filter
        (·.2.name = name) = (containersByKey functions).filter (·.1 = { space, name }) := by
      rw [List.filter_filter]
      apply List.filter_congr
      intro entry hentry
      rw [name_of_mem_containersByKey hentry]
      simp [ContainerKey.ext_iff, Bool.and_comm]
    have hplaced : (functions.filter (·.space = space)).filter (·.container = name) =
        functions.filter (·.key = { space, name }) := by
      rw [List.filter_filter]
      apply List.filter_congr
      intro placed _
      simp [Placed.key, Bool.and_comm]
    rw [List.filter_map, filter_containersOf, hplaced]
    refine (congrArg (List.map Prod.snd) hentries).trans ?_
    exact filter_containersByKey functions { space, name }
  apply Ordered.eq_of_pairwise_of_filter_eq _ _ hnames
  · rw [List.pairwise_map]
    have hascending : Ordered.Ascending (containersByKey functions) :=
      Ordered.ascending_gather functions
    apply (hascending.filter (·.1.space = space)).imp_of_mem
    intro left right hleft hright hlt
    obtain ⟨hleft, hleftSpace⟩ := List.mem_filter.1 hleft
    obtain ⟨hright, hrightSpace⟩ := List.mem_filter.1 hright
    rw [name_of_mem_containersByKey hleft, name_of_mem_containersByKey hright]
    have hspaces : left.1.space = right.1.space :=
      (of_decide_eq_true hleftSpace).trans (of_decide_eq_true hrightSpace).symm
    rcases hlt with hspace | ⟨-, hname⟩
    · exact absurd (hspaces ▸ hspace) (String.lt_irrefl _)
    · exact Std.le_of_lt hname
  · exact (containers_ascending_containersOf _).imp Std.le_of_lt

/-! ## Gathered declarations -/

theorem foldl_addDeclaration (pairs : List (String × Declaration)) (group : Namespace) :
    pairs.foldl (fun group pair ↦ group.addDeclaration pair.2) group =
      { group with declarations := group.declarations ++ pairs.map Prod.snd } :=
  Ordered.foldl_concat (fun members ↦ { group with declarations := members }) Prod.snd
    (fun _ _ ↦ rfl) pairs group.declarations

theorem name_of_mem_gather {entry : String × Namespace}
    (h : entry ∈ Ordered.gather (config.targetSpace ·.1) (Namespace.ofSource config ·.1)
      (Namespace.addDeclaration ·.2) declarations) :
    entry.2.name = entry.1 ∧ ∃ space, config.targetSpace space = entry.1 := by
  obtain ⟨pair, rest, hgroup, heq⟩ := Ordered.exists_of_mem_gather h
  have hspace : config.targetSpace pair.1 = entry.1 :=
    Ordered.key_eq_of_filter_eq_cons (x := pair) hgroup
  refine ⟨?_, pair.1, hspace⟩
  rw [heq, foldl_addDeclaration, ← hspace]
  rfl

theorem exists_of_mem_declarationGroups {group : Namespace}
    (h : group ∈ declarationGroups config declarations) :
    ∃ space, config.targetSpace space = group.name := by
  obtain ⟨entry, hentry, rfl⟩ := List.mem_map.1 h
  obtain ⟨hname, hspace⟩ := name_of_mem_gather hentry
  exact hname ▸ hspace

theorem pairwise_declarationGroups (config : Config) (declarations : List (String × Declaration)) :
    (declarationGroups config declarations).Pairwise (·.name < ·.name) := by
  rw [declarationGroups, List.pairwise_map]
  apply (Ordered.ascending_gather declarations).imp_of_mem
  intro left right hleft hright hlt
  rw [← (name_of_mem_gather hleft).1, ← (name_of_mem_gather hright).1] at hlt
  exact hlt

theorem filter_declarationGroups (config : Config) (declarations : List (String × Declaration))
    (space : String) :
    (declarationGroups config declarations).filter (·.name = config.targetSpace space) =
      if declarations.filter (·.1 = space) = [] then []
      else [{ name := config.targetSpace space
              sourceName := space
              declarations := Ordered.sortBy Declaration.name
                ((declarations.filter (·.1 = space)).map Prod.snd) }] := by
  have hentries : (Ordered.gather (config.targetSpace ·.1) (Namespace.ofSource config ·.1)
      (Namespace.addDeclaration ·.2) declarations).filter (·.2.name = config.targetSpace space) =
        (Ordered.gather (config.targetSpace ·.1) (Namespace.ofSource config ·.1)
          (Namespace.addDeclaration ·.2) declarations).filter (·.1 = config.targetSpace space) := by
    apply List.filter_congr
    intro entry hentry
    rw [(name_of_mem_gather hentry).1]
  rw [declarationGroups, List.filter_map]
  refine (congrArg (List.map _) hentries).trans ?_
  rw [Ordered.filter_gather]
  simp only [config.targetSpace_injective.eq_iff]
  cases hgroup : declarations.filter (·.1 = space) with
  | nil => rfl
  | cons pair rest =>
    have hspace : pair.1 = space := Ordered.key_eq_of_filter_eq_cons hgroup
    rw [if_neg (List.cons_ne_nil _ _)]
    dsimp only
    rw [foldl_addDeclaration, hspace]
    rfl

/-! ## The merged client -/

theorem filter_placeContainer (config : Config) (space : String) (container : Container)
    (client : Client) (name : String) :
    (placeContainer config space container client).filter (·.name = name) =
      if config.targetSpace space = name then
        Ordered.changeFirst (.ofSource config space) (Namespace.addContainer container)
          (client.filter (·.name = name))
      else client.filter (·.name = name) := by
  induction client with
  | nil =>
    by_cases hname : config.targetSpace space = name
    · simp [placeContainer, Ordered.changeFirst, Namespace.ofSource, Namespace.addContainer, hname]
    · simp [placeContainer, Namespace.ofSource, Namespace.addContainer, hname]
  | cons group client ih =>
    rw [placeContainer]
    split
    · rename_i hgroup
      by_cases hname : group.name = name
      · simp [Namespace.addContainer, Ordered.changeFirst, hname, ← hgroup]
      · simp [Namespace.addContainer, hname, ← hgroup]
    · rename_i hgroup
      rw [List.filter_cons, ih, List.filter_cons]
      by_cases hname : group.name = name
      · have hspace : config.targetSpace space ≠ name := fun heq ↦
          hgroup (hname.trans heq.symm)
        simp [hname, hspace]
      · simp [hname]

theorem foldl_addContainer (entries : List (ContainerKey × Container)) (group : Namespace) :
    entries.foldl (fun group entry ↦ group.addContainer entry.2) group =
      { group with containers := group.containers ++ entries.map Prod.snd } :=
  Ordered.foldl_concat (fun members ↦ { group with containers := members }) Prod.snd
    (fun _ _ ↦ rfl) entries group.containers

/-- Under one name stands what was placed there, in order. -/
theorem filter_foldl_placeContainer (config : Config) (client : Client)
    (entries : List (ContainerKey × Container)) (name : String) :
    (entries.foldl (fun client (key, container) ↦ placeContainer config key.space container client)
        client).filter (·.name = name) =
      (entries.filter (config.targetSpace ·.1.space = name)).foldl
        (fun groups entry ↦ Ordered.changeFirst (.ofSource config entry.1.space)
          (Namespace.addContainer entry.2) groups)
        (client.filter (·.name = name)) :=
  Ordered.filter_foldl_eq (fun _ ↦ True) (fun _ _ _ ↦ trivial)
    (fun client entry name _ ↦ filter_placeContainer config entry.1.space entry.2 client name)
    entries trivial name

theorem filter_map_namespaceOf (config : Config) (declarations : List (String × Declaration))
    (functions : List Placed) (space : String) :
    ((spaces declarations functions).map (namespaceOf config declarations functions)).filter
        (·.name = config.targetSpace space) =
      if space ∈ spaces declarations functions then [namespaceOf config declarations functions space]
      else [] := by
  have hspace : (spaces declarations functions).filter
      (config.targetSpace · = config.targetSpace space) =
        if space ∈ spaces declarations functions then [space] else [] := by
    split
    · rename_i hmem
      exact Ordered.filter_key_eq_singleton
        (nodup_targetSpace_spaces config declarations functions) hmem
    · rename_i hnot
      rw [List.filter_eq_nil_iff]
      intro other hother heq
      exact hnot (config.targetSpace_injective (of_decide_eq_true heq) ▸ hother)
  rw [List.filter_map]
  refine (congrArg (List.map _) hspace).trans ?_
  split <;> rfl

/-- Where no declaration has made the namespace, the first container does. -/
theorem foldl_changeFirst_addContainer (config : Config) {space : String}
    {entries : List (ContainerKey × Container)} (h : ∀ entry ∈ entries, entry.1.space = space) :
    entries.foldl
        (fun groups entry ↦ Ordered.changeFirst (.ofSource config entry.1.space)
          (Namespace.addContainer entry.2) groups) [] =
      if entries.map Prod.snd = [] then []
      else [{ name := config.targetSpace space
              sourceName := space
              containers := entries.map Prod.snd }] := by
  cases entries with
  | nil => rfl
  | cons entry entries =>
    rw [List.foldl_cons, Ordered.changeFirst, Ordered.foldl_changeFirst_cons, foldl_addContainer,
      h entry List.mem_cons_self]
    rfl

/-- The merged client has one namespace for each source namespace that something comes from. -/
theorem filter_placed (config : Config) (declarations : List (String × Declaration))
    (functions : List Placed) (space : String) :
    ((containersByKey functions).foldl
        (fun client (key, container) ↦ placeContainer config key.space container client)
        (declarationGroups config declarations)).filter (·.name = config.targetSpace space) =
      if space ∈ spaces declarations functions then [namespaceOf config declarations functions space]
      else [] := by
  have hentries : ∀ entry ∈ (containersByKey functions).filter (·.1.space = space),
      entry.1.space = space := fun entry hentry ↦ of_decide_eq_true (List.mem_filter.1 hentry).2
  have hcontainers := map_filter_containersByKey functions space
  have hmem : space ∈ spaces declarations functions ↔ _ := mem_spaces_iff
  rw [filter_foldl_placeContainer, filter_declarationGroups]
  simp only [config.targetSpace_injective.eq_iff]
  by_cases hdeclarations : declarations.filter (·.1 = space) = []
  · rw [if_pos hdeclarations, foldl_changeFirst_addContainer config hentries, hcontainers]
    by_cases hfunctions : functions.filter (·.space = space) = []
    · have hnot := mt hmem.1 (not_or.2 ⟨not_not.2 hdeclarations, not_not.2 hfunctions⟩)
      rw [if_neg hnot, if_pos (containersOf_eq_nil_iff.2 hfunctions)]
    · rw [if_pos (hmem.2 (.inr hfunctions)), if_neg (mt containersOf_eq_nil_iff.1 hfunctions),
        namespaceOf, hdeclarations]
      rfl
  · rw [if_neg hdeclarations, if_pos (hmem.2 (.inl hdeclarations)), Ordered.foldl_changeFirst_cons,
      foldl_addContainer, hcontainers]
    rfl

/-- The client that is merged is the one that is made source namespace by source namespace. -/
theorem build_eq (config : Config) (declarations : List (String × Declaration))
    (functions : List Placed) :
    build config declarations functions = Ordered.sortBy Namespace.name
      ((spaces declarations functions).map (namespaceOf config declarations functions)) := by
  apply Ordered.sortBy_congr
  intro name
  by_cases hname : ∃ space, config.targetSpace space = name
  · obtain ⟨space, rfl⟩ := hname
    rw [filter_placed, filter_map_namespaceOf]
  · have hentries : (containersByKey functions).filter (config.targetSpace ·.1.space = name) = [] :=
      List.filter_eq_nil_iff.2 fun entry _ heq ↦ hname ⟨entry.1.space, of_decide_eq_true heq⟩
    have hgroups : (declarationGroups config declarations).filter (·.name = name) = [] := by
      rw [List.filter_eq_nil_iff]
      intro group hgroup heq
      exact hname (of_decide_eq_true heq ▸ exists_of_mem_declarationGroups hgroup)
    have hspaces : ((spaces declarations functions).map
        (namespaceOf config declarations functions)).filter (·.name = name) = [] := by
      rw [List.filter_eq_nil_iff]
      intro group hgroup heq
      obtain ⟨space, -, rfl⟩ := List.mem_map.1 hgroup
      exact hname ⟨space, of_decide_eq_true heq⟩
    rw [filter_foldl_placeContainer, hentries, hgroups, hspaces]
    rfl

/-- Declarations alone are in order as they are gathered. -/
theorem declarationGroups_eq_build (config : Config) (declarations : List (String × Declaration)) :
    declarationGroups config declarations = build config declarations [] := by
  have hordered : (declarationGroups config declarations).Pairwise (·.name ≤ ·.name) :=
    (pairwise_declarationGroups config declarations).imp Std.le_of_lt
  exact (Ordered.sortBy_eq_self hordered).symm

end Client

end TypedClient
