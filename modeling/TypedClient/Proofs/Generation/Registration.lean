import Mathlib.Data.Finset.Card
import TypedClient.Proofs.Client.Assembly
import TypedClient.Proofs.Generation.Run

/-!
# First descriptors of a name

Entering a type under a name that is held already changes nothing, so after any
calls a registry holds of each name the first type that was entered with it,
however the types were spread over the calls; and only these types bring in
their namespaces. The registry of a run is filled with pending types. It holds a
type exactly if that is the first of its name in the document and can be
declared, and has the names of the declarations that the run makes.
-/

namespace TypedClient

namespace Registry

/-! ## One type, and one call -/

/-- A type that is entered is found under its name, unless another one was found before. -/
theorem get?_insert (registry : Registry) (type : SourceType) (name : String) :
    (registry.insert type).get? name =
      (registry.get? name).or ([type].find? (·.name = name)) := by
  have hget (other : Registry) : other.get? name = other.types.find? (·.name = name) := rfl
  rw [hget (registry.insert type), insert_types]
  split
  · rename_i hheld
    by_cases hname : type.name = name
    · obtain ⟨held, hmem, hheld⟩ := List.mem_map.1 hheld
      have hfound : registry.get? name = some held :=
        get?_eq_some_iff.2 ⟨hmem, hheld.trans hname⟩
      rw [hfound, Option.some_or, ← hget, hfound]
    · have hmiss : [type].find? (·.name = name) = none := by simp [hname]
      rw [hmiss, Option.or_none, hget]
  · rw [List.find?_append, hget]

theorem get?_register (registry : Registry) (types : List SourceType) (name : String) :
    (registry.register types).get? name =
      (registry.get? name).or (types.find? (·.name = name)) := by
  induction types generalizing registry with
  | nil => exact Option.or_none.symm
  | cons type types ih =>
    calc
      ((registry.insert type).register types).get? name =
          ((registry.insert type).get? name).or (types.find? (·.name = name)) := ih _
      _ = (registry.get? name).or
          (([type].find? (·.name = name)).or (types.find? (·.name = name))) := by
        rw [get?_insert, Option.or_assoc]
      _ = (registry.get? name).or ((type :: types).find? (·.name = name)) := by
        rw [← List.find?_append, List.singleton_append]

/-! ## Several calls -/

/-- How types are spread over calls does not matter. -/
theorem foldl_register (batches : List (List SourceType)) (registry : Registry) :
    batches.foldl register registry = registry.register batches.flatten :=
  List.foldl_flatten.symm

/-- The registry holds, of each name, the first of the types with that name. -/
structure HoldsFirsts (registry : Registry) (types : List SourceType) : Prop where
  get?_eq : ∀ name, registry.get? name = types.find? (·.name = name)
  size_eq : registry.size = (types.map SourceType.name).toFinset.card
  /-- Only the types that are held bring in their namespaces. -/
  containsSpace_iff : ∀ space, registry.containsSpace space = true ↔
    ∃ name type, types.find? (·.name = name) = some type ∧ type.space = space

theorem size_eq_card (registry : Registry) :
    registry.size = (registry.types.map SourceType.name).toFinset.card := by
  rw [List.toFinset_card_of_nodup registry.names_nodup, List.length_map, size]

theorem mem_names_iff {registry : Registry} {name : String} :
    name ∈ registry.types.map SourceType.name ↔ (registry.get? name).isSome = true := by
  rw [← contains_eq_isSome_get?, contains_iff, List.mem_map]

theorem holdsFirsts_of_get? {registry : Registry} {types : List SourceType}
    (h : ∀ name, registry.get? name = types.find? (·.name = name)) :
    registry.HoldsFirsts types where
  get?_eq := h
  size_eq := by
    rw [size_eq_card]
    congr 1
    ext name
    rw [List.mem_toFinset, List.mem_toFinset, mem_names_iff, h]
    simp
  containsSpace_iff space := by
    rw [containsSpace_iff]
    constructor
    · intro hexists
      obtain ⟨type, hmem, hspace⟩ := hexists
      exact ⟨type.name, type, h type.name ▸ get?_eq_some_iff.2 ⟨hmem, rfl⟩, hspace⟩
    · intro hexists
      obtain ⟨name, type, hfound, hspace⟩ := hexists
      exact ⟨type, (mem_of_get? ((h name).trans hfound)).1, hspace⟩

theorem holdsFirsts_ofList (types : List SourceType) : (ofList types).HoldsFirsts types :=
  holdsFirsts_of_get? fun name ↦ get?_register {} types name

end Registry

/-! ## The registry of a run -/

theorem SourceType.mem_pending_iff_find? {types : List SourceType} {type : SourceType} :
    type ∈ pending types ↔
      types.find? (·.name = type.name) = some type ∧ type.isDeclarable = true := by
  rw [mem_pending_iff, ← Registry.ofList_types, ← (Registry.holdsFirsts_ofList types).get?_eq,
    Registry.get?_eq_some_iff]
  simp

namespace Generation

theorem get?_scopeOf_eq_some_iff {config : Config} {types : List SourceType} {name : String}
    {type : SourceType} :
    (scopeOf config types).registry.get? name = some type ↔
      types.find? (·.name = name) = some type ∧ type.isDeclarable = true := by
  rw [Registry.get?_eq_some_iff, scopeOf_types, SourceType.mem_pending_iff_find?]
  constructor
  · intro h
    obtain ⟨⟨hfound, hdeclarable⟩, rfl⟩ := h
    exact ⟨hfound, hdeclarable⟩
  · intro h
    obtain ⟨hfound, hdeclarable⟩ := h
    obtain rfl : type.name = name := by simpa using List.find?_some hfound
    exact ⟨⟨hfound, hdeclarable⟩, rfl⟩

/-- After any calls, a registry holds the first type of each name among all that were entered, and
this is all that the calls leave behind. The registry of a run holds those of them that can be
declared, and has exactly the names that the run declares: where the first type of a name cannot
be declared, neither knows the name. -/
theorem registry_keeps_firsts (batches : List (List SourceType)) (config : Config)
    (types : List SourceType) :
    (batches.foldl Registry.register {} = .ofList batches.flatten ∧
        (batches.foldl Registry.register {}).HoldsFirsts batches.flatten) ∧
      (∀ name type, (scopeOf config types).registry.get? name = some type ↔
        types.find? (·.name = name) = some type ∧ type.isDeclarable = true) ∧
      ∀ filter docs name,
        name ∈ (Client.declarations (scopeOf config types) filter docs
            (SourceType.pending types)).map (·.2.sourceName) ↔
          (scopeOf config types).registry.contains name = true := by
  have hcalls := Registry.foldl_register batches {}
  refine ⟨⟨hcalls, ?_⟩, fun name type ↦ get?_scopeOf_eq_some_iff, ?_⟩
  · rw [hcalls]
    exact Registry.holdsFirsts_ofList batches.flatten
  · intro filter docs name
    have hnames : (Client.declarations (scopeOf config types) filter docs
        (SourceType.pending types)).map (·.2.sourceName) =
          (SourceType.pending types).map SourceType.name :=
      Client.map_declarations_pending (fun _ _ ↦ rfl) types
    rw [hnames, ← scopeOf_types config types, Registry.mem_names_iff,
      Registry.contains_eq_isSome_get?]

end Generation

end TypedClient
