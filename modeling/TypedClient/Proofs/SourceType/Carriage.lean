import TypedClient.Callable.Binding
import TypedClient.Proofs.SourceType.Nesting

/-!
# Types that are carried outside the body

The path, the query and the headers carry text. Primitives, texts and
enumerations can be written there, and so can the elements of a one-dimensional
array or of a sequence of these. Nullables of one argument do not count, neither
around the whole nor around an element.
-/

namespace TypedClient

namespace TypeKind

/-- Primitives, texts and enumerations. -/
inductive Scalar : TypeKind → Prop
  | primitive (primitive : Primitive) : Scalar (.primitive primitive)
  | string : Scalar .string
  | enumeration : Scalar .enumeration

/-- One-dimensional arrays and sequences of the element. -/
inductive Collects : TypeKind → SourceType → Prop
  | array (element : SourceType) : Collects (.array 1 element) element
  | sequence (element : SourceType) : Collects (.generic .sequence [element]) element

end TypeKind

namespace SourceType

/-- The second type is what is left of the first without some nullables of one argument. -/
inductive Unwraps : SourceType → SourceType → Prop
  | refl (type : SourceType) : Unwraps type type
  | nullable {type inner core : SourceType} (hkind : type.kind = .generic .nullable [inner])
      (hinner : Unwraps inner core) : Unwraps type core

def HoldsScalar (type : SourceType) : Prop :=
  ∃ core, type.Unwraps core ∧ core.kind.Scalar

/-- The type may be bound to a part of the request other than the body. -/
def Carriable (type : SourceType) : Prop :=
  ∃ core, type.Unwraps core ∧
    (core.kind.Scalar ∨ ∃ element, core.kind.Collects element ∧ element.HoldsScalar)

theorem peelNullable_of_nullable {type inner : SourceType}
    (h : type.kind = .generic .nullable [inner]) : type.peelNullable = inner.peelNullable := by
  cases type
  subst h
  rw [peelNullable]

theorem peelNullable_eq_self {type : SourceType}
    (h : ∀ inner, type.kind ≠ .generic .nullable [inner]) : type.peelNullable = type := by
  unfold peelNullable
  split
  · exact absurd rfl (h _)
  · rfl

theorem unwraps_peelNullable (type : SourceType) : type.Unwraps type.peelNullable := by
  induction type using inductionOnParts with
  | step type ih =>
    by_cases hnullable : ∃ inner, type.kind = .generic .nullable [inner]
    · obtain ⟨inner, hkind⟩ := hnullable
      rw [peelNullable_of_nullable hkind]
      exact .nullable hkind (ih inner (by simp [parts, hkind]))
    · rw [peelNullable_eq_self fun inner hkind ↦ hnullable ⟨inner, hkind⟩]
      exact .refl type

/-- Peeling goes on until no nullable of one argument is left. -/
theorem Unwraps.peelNullable_eq {type core : SourceType} (h : type.Unwraps core) :
    type.peelNullable = core.peelNullable := by
  induction h with
  | refl type => rfl
  | nullable hkind _ ih => rw [peelNullable_of_nullable hkind, ih]

/-- A property of kinds that excludes nullables is decided after peeling. -/
theorem exists_unwraps_iff {type : SourceType} (property : TypeKind → Prop)
    (h : ∀ inner, ¬ property (.generic .nullable [inner])) :
    (∃ core, type.Unwraps core ∧ property core.kind) ↔ property type.peelNullable.kind := by
  constructor
  · intro hexists
    obtain ⟨core, hunwraps, hproperty⟩ := hexists
    have hself : core.peelNullable = core :=
      peelNullable_eq_self fun inner hkind ↦ h inner (hkind ▸ hproperty)
    rwa [hunwraps.peelNullable_eq, hself]
  · intro hproperty
    exact ⟨_, unwraps_peelNullable type, hproperty⟩

/-! ## What the checks decide -/

theorem isScalar_iff_peelNullable {type : SourceType} :
    type.isScalar = true ↔ type.peelNullable.kind.Scalar := by
  unfold isScalar
  constructor
  · intro h
    split at h
    · rename_i primitive hkind
      exact hkind ▸ .primitive primitive
    · rename_i hkind
      exact hkind ▸ .string
    · rename_i hkind
      exact hkind ▸ .enumeration
    · contradiction
  · intro h
    generalize type.peelNullable.kind = kind at h
    cases h <;> rfl

theorem isScalar_iff {type : SourceType} : type.isScalar = true ↔ type.HoldsScalar := by
  rw [HoldsScalar, exists_unwraps_iff TypeKind.Scalar fun _ ↦ nofun]
  exact isScalar_iff_peelNullable

theorem element?_eq_some_iff {type element : SourceType} :
    type.element? = some element ↔ type.peelNullable.kind.Collects element := by
  unfold element?
  constructor
  · intro h
    split at h
    · rename_i hkind
      split at h
      · rename_i hrank
        obtain rfl := Option.some.inj h
        rw [hkind, hrank]
        exact .array _
      · contradiction
    · rename_i hkind
      obtain rfl := Option.some.inj h
      rw [hkind]
      exact .sequence _
    · contradiction
  · intro h
    generalize type.peelNullable.kind = kind at h
    cases h <;> rfl

theorem carriable_iff_peelNullable {type : SourceType} : type.Carriable ↔
    type.peelNullable.kind.Scalar ∨
      ∃ element, type.peelNullable.kind.Collects element ∧ element.HoldsScalar := by
  apply exists_unwraps_iff fun kind ↦
    kind.Scalar ∨ ∃ element, kind.Collects element ∧ element.HoldsScalar
  intro inner h
  rcases h with h | ⟨_, h, -⟩ <;> cases h

theorem isSimple_iff {type : SourceType} : type.isSimple = true ↔ type.Carriable := by
  rw [carriable_iff_peelNullable, isSimple, Bool.or_eq_true, isScalar_iff_peelNullable,
    Option.any_eq_true]
  simp only [element?_eq_some_iff, isScalar_iff]

end SourceType

end TypedClient
