import Mathlib.Data.List.Nodup
import TypedClient.Declarable
import TypedClient.Proofs.Ordered
import TypedClient.Registry

/-!
# What a registry holds

Entering types appends, in their order, the firsts among them by name that the
registry does not hold already. A registry made from pending types therefore
holds exactly these.
-/

namespace TypedClient

namespace Registry

theorem contains_iff {registry : Registry} {name : String} :
    registry.contains name = true ↔ ∃ type ∈ registry.types, type.name = name := by
  simp [contains]

theorem contains_eq_isSome_get? (registry : Registry) (name : String) :
    registry.contains name = (registry.get? name).isSome := by
  rw [Bool.eq_iff_iff]
  simp [contains, get?]

/-- The index knows the namespaces of the types, and no others. -/
theorem containsSpace_iff {registry : Registry} {space : String} :
    registry.containsSpace space = true ↔ ∃ type ∈ registry.types, type.space = space := by
  rw [containsSpace, decide_eq_true_eq, registry.mem_spaces_iff]

theorem mem_of_get? {registry : Registry} {name : String} {type : SourceType}
    (h : registry.get? name = some type) : type ∈ registry.types ∧ type.name = name :=
  ⟨List.mem_of_find?_eq_some h, by simpa using List.find?_some h⟩

/-- Names are unique in a registry. -/
theorem eq_of_name_eq {registry : Registry} {left right : SourceType}
    (hleft : left ∈ registry.types) (hright : right ∈ registry.types)
    (h : left.name = right.name) : left = right :=
  List.inj_on_of_nodup_map registry.names_nodup hleft hright h

theorem get?_eq_some_iff {registry : Registry} {name : String} {type : SourceType} :
    registry.get? name = some type ↔ type ∈ registry.types ∧ type.name = name := by
  constructor
  · exact mem_of_get?
  intro hentry
  obtain ⟨hmem, hname⟩ := hentry
  cases hfound : registry.get? name with
  | none =>
    have hmiss := List.find?_eq_none.1 hfound type hmem
    simp [hname] at hmiss
  | some found =>
    obtain ⟨hfoundMem, hfoundName⟩ := mem_of_get? hfound
    rw [eq_of_name_eq hfoundMem hmem (hfoundName.trans hname.symm)]

theorem insert_types (registry : Registry) (type : SourceType) :
    (registry.insert type).types =
      if type.name ∈ registry.types.map SourceType.name then registry.types
      else registry.types ++ [type] := by
  have hcontains : registry.contains type.name = true ↔
      type.name ∈ registry.types.map SourceType.name := by
    rw [contains_iff, List.mem_map]
  unfold insert
  split
  · rename_i h
    rw [if_pos (hcontains.1 h)]
  · rename_i h
    rw [if_neg (fun hmem ↦ h (hcontains.2 hmem))]

theorem register_types (registry : Registry) (types : List SourceType) :
    (registry.register types).types =
      registry.types ++
        Ordered.firstsFrom SourceType.name (registry.types.map SourceType.name) types := by
  induction types generalizing registry with
  | nil => simp [register, Ordered.firstsFrom]
  | cons type types ih =>
    have hstep : registry.register (type :: types) = (registry.insert type).register types := rfl
    rw [hstep, ih, Ordered.firstsFrom, insert_types]
    split
    · rfl
    · rw [List.append_assoc, List.singleton_append]
      congr 2
      apply Ordered.firstsFrom_congr
      intro name
      simp [or_comm]

@[simp]
theorem ofList_types (types : List SourceType) :
    (ofList types).types = Ordered.firstsBy SourceType.name types := by
  rw [ofList, register_types]
  rfl

end Registry

namespace SourceType

theorem mem_pending_iff {types : List SourceType} {type : SourceType} :
    type ∈ pending types ↔
      type ∈ Ordered.firstsBy SourceType.name types ∧ type.isDeclarable = true :=
  List.mem_filter

/-- A name whose first descriptor cannot be declared is not pending. -/
theorem name_ne_of_mem_pending {types : List SourceType} {type : SourceType}
    (hfirst : type ∈ Ordered.firstsBy SourceType.name types) (hnot : type.isDeclarable = false) :
    ∀ other ∈ pending types, other.name ≠ type.name := by
  intro other hother hname
  obtain ⟨hmem, hdeclarable⟩ := mem_pending_iff.1 hother
  have heq : other = type :=
    List.inj_on_of_nodup_map (Ordered.nodup_map_firstsBy _ types) hmem hfirst hname
  rw [heq, hnot] at hdeclarable
  contradiction

/-- Every pending type can be declared. -/
@[simp]
theorem filter_isDeclarable_pending (types : List SourceType) :
    (pending types).filter isDeclarable = pending types :=
  List.filter_eq_self.2 fun _ htype ↦ (mem_pending_iff.1 htype).2

theorem nodup_names_pending (types : List SourceType) :
    ((pending types).map SourceType.name).Nodup :=
  (Ordered.nodup_map_firstsBy _ types).sublist ((List.filter_sublist).map _)

/-- The registry of a run holds the pending types and nothing else. -/
@[simp]
theorem ofList_pending_types (types : List SourceType) :
    (Registry.ofList (pending types)).types = pending types := by
  rw [Registry.ofList_types, Ordered.firstsBy_eq_self (nodup_names_pending types)]

end SourceType

end TypedClient
