import TypedClient.Proofs.SourceType.Nesting
import TypedClient.Proofs.TypeRef.Nesting

/-!
# Where resolved references point

Resolution makes a reference into the client at the registered descriptors that
occur in a type, and nowhere else: nullable, deferred, tuple, dictionary and
sequence layers, framework types and names from outside the run have no target
of their own. The client namespace and the name are computed from the occurring
descriptor, not from the registered one.
-/

namespace TypedClient

/-- The client namespace and the name a declaration of the type goes by. -/
def SourceType.declaredAs (config : Config) (type : SourceType) : String × String :=
  (config.targetSpace type.space, Name.short type.name type.space)

namespace Scope

@[simp]
theorem targets_reference (known : WellKnown) : known.reference.targets = [] := by
  cases known <;> rfl

@[simp]
theorem targets_external (name : String) (kind : TypeKind) : (external name kind).targets = [] := by
  rw [external]
  split
  · exact targets_reference _
  · rfl

/-- A generic type from outside the families points where its arguments point. -/
theorem targets_externalGeneric_subset (name : String) (args : List TypeRef) :
    (externalGeneric name args).targets ⊆ args.flatMap TypeRef.targets := by
  unfold externalGeneric
  split
  · simp
  · simp
  · rw [TypeRef.targets_of_target?_eq_none rfl]
    exact List.Subset.refl _

theorem targets_generic_subset (config : Config) (name : String) (family : GenericFamily)
    (args : List TypeRef) :
    (generic config name family args).targets ⊆ args.flatMap TypeRef.targets := by
  unfold generic
  split
  · simp
  · rw [TypeRef.targets_of_target?_eq_none rfl]
    simp [TypeRef.children]
  · rw [TypeRef.targets_of_target?_eq_none rfl]
    exact List.Subset.refl _
  · simp
  · simp
  · split
    · rw [TypeRef.targets_of_target?_eq_none rfl]
      exact List.Subset.refl _
    · rw [TypeRef.targets_of_target?_eq_none rfl]
      exact List.Subset.refl _
  · exact targets_externalGeneric_subset name args

/-- The arguments of a declared type point where its parts point. -/
theorem targets_resolveParams_subset (scope : Scope) (type : SourceType) :
    (scope.resolveParams type.typeParams type.kind).flatMap TypeRef.targets ⊆
      type.parts.flatMap fun part ↦ (scope.resolve part).targets := by
  intro target h
  rw [resolveParams_eq] at h
  split at h
  · simp [List.flatMap_map] at h
  · rw [List.flatMap_map] at h
    obtain ⟨arg, harg, htarget⟩ := List.mem_flatMap.1 h
    exact List.mem_flatMap.2 ⟨arg, type.args_subset_parts harg, htarget⟩

theorem targets_resolveKind_subset (scope : Scope) (type : SourceType) :
    (scope.resolveKind type.name type.kind).targets ⊆
      type.parts.flatMap fun part ↦ (scope.resolve part).targets := by
  unfold SourceType.parts
  intro target h
  cases hkind : type.kind with
  | array rank element =>
    rw [hkind, resolveKind, TypeRef.targets_of_target?_eq_none rfl] at h
    simpa [TypeRef.children] using h
  | generic family args =>
    rw [hkind, resolveKind] at h
    have hargs := targets_generic_subset _ _ _ _ h
    simpa [List.flatMap_map] using hargs
  | custom => simp [hkind, resolveKind] at h
  | _ => simp [hkind, resolveKind] at h

/-- Every target of a resolved reference belongs to a registered descriptor that occurs in the
type, and is computed from that descriptor. -/
theorem exists_occurs_of_mem_targets {scope : Scope} {type : SourceType}
    {target : String × String} (h : target ∈ (scope.resolve type).targets) :
    ∃ described : SourceType, described.Occurs type ∧
      scope.registry.contains described.name = true ∧
      target = described.declaredAs scope.config := by
  induction type using SourceType.inductionOnParts with
  | step type ih =>
    have below (hpart : target ∈ type.parts.flatMap fun part ↦ (scope.resolve part).targets) :
        ∃ described : SourceType, described.Occurs type ∧
          scope.registry.contains described.name = true ∧
          target = described.declaredAs scope.config := by
      obtain ⟨part, hmem, htarget⟩ := List.mem_flatMap.1 hpart
      obtain ⟨described, hoccurs, hrest⟩ := ih part hmem htarget
      exact ⟨described, .part hmem hoccurs, hrest⟩
    rw [resolve_eq] at h
    by_cases hname : scope.registry.contains type.name = true
    · rw [if_pos hname, TypeRef.targets_named_some, List.mem_cons] at h
      rcases h with rfl | h
      · exact ⟨type, .self, hname, rfl⟩
      · exact below (targets_resolveParams_subset scope type h)
    · rw [if_neg hname] at h
      exact below (targets_resolveKind_subset scope type h)

end Scope

end TypedClient
