import TypedClient.Scope

/-!
# Descriptors inside a descriptor

A reference is made by descending from a descriptor to the element of an array
and to the arguments of a generic type. Everything reached in this way occurs in
the descriptor. The members and the base of a descriptor do not: they count only
where its declaration is made.
-/

namespace TypedClient

namespace SourceType

/-- The descriptors one step inside. -/
def parts (type : SourceType) : List SourceType :=
  match type.kind with
  | .array _ element => [element]
  | .generic _ args => args
  | _ => []

/-- A descriptor together with everything nested in it, at any depth. -/
inductive Occurs (inner : SourceType) : SourceType → Prop
  | self : Occurs inner inner
  | part {outer part : SourceType} (hpart : part ∈ outer.parts) (hinner : Occurs inner part) :
      Occurs inner outer

theorem forall_occurs_iff {type : SourceType} {property : SourceType → Prop} :
    (∀ inner : SourceType, inner.Occurs type → property inner) ↔
      property type ∧
        ∀ part ∈ type.parts, ∀ inner : SourceType, inner.Occurs part → property inner := by
  constructor
  · intro h
    exact ⟨h type .self, fun part hpart inner hinner ↦ h inner (.part hpart hinner)⟩
  · intro h inner hinner
    cases hinner with
    | self => exact h.1
    | part hpart hinner => exact h.2 _ hpart inner hinner

theorem sizeOf_lt_of_mem_parts {part type : SourceType} (h : part ∈ type.parts) :
    sizeOf part < sizeOf type := by
  obtain ⟨name, space, kind, members, base, constants, typeParams, docKey⟩ := type
  cases kind with
  | array rank element =>
    simp only [parts, List.mem_singleton] at h
    subst h
    simp
    omega
  | generic family args =>
    have hargs := List.sizeOf_lt_of_mem (show part ∈ args from h)
    simp
    omega
  | _ => simp [parts] at h

theorem args_subset_parts (type : SourceType) : type.args ⊆ type.parts := by
  unfold args parts
  cases type.kind with
  | generic family args => exact List.Subset.refl _
  | _ => exact List.nil_subset _

/-- A property of descriptors that passes from the parts to the whole holds of all of them. -/
@[elab_as_elim]
theorem inductionOnParts {motive : SourceType → Prop}
    (step : ∀ type, (∀ part ∈ type.parts, motive part) → motive type)
    (type : SourceType) : motive type :=
  step type fun part h ↦
    have := sizeOf_lt_of_mem_parts h
    inductionOnParts step part
termination_by type

end SourceType

namespace Scope

theorem resolve_eq (scope : Scope) (type : SourceType) : scope.resolve type =
    if scope.registry.contains type.name then
      .named (some (scope.config.targetSpace type.space)) (Name.short type.name type.space)
        (scope.resolveParams type.typeParams type.kind)
    else scope.resolveKind type.name type.kind := by
  cases type
  rw [resolve]

/-- A declared type is referred to with its arguments, or else with its type parameters. -/
theorem resolveParams_eq (scope : Scope) (type : SourceType) :
    scope.resolveParams type.typeParams type.kind =
      if type.args.isEmpty then type.typeParams.map .parameter
      else type.args.map scope.resolve := by
  unfold SourceType.args
  cases type.kind with
  | generic family args =>
    cases args with
    | nil => rfl
    | cons first rest => simp [resolveParams]
  | _ => rfl

end Scope

end TypedClient
