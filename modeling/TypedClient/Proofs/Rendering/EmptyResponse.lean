import TypedClient.Proofs.Rendering.Nullability
import TypedClient.Rendering.Transport

/-!
# Empty responses

A response that may be null arrives empty, and a client of either flavor then
returns null before it reads anything. Both flavors do so exactly if the
promised type is a union with null. That is the case for text, and for scalars
and structured data if one of the wrappers around the response is a nullable.
-/

namespace TypedClient

open TypeScript (Ty Stmt)

variable {scope : Scope} {type inner : SourceType}

/-! ## Nullable wrappers -/

namespace SourceType

/-- One of the wrappers around the type is a nullable. -/
inductive NullableLayer : SourceType → Prop
  | outer {type inner : SourceType} (hkind : type.kind = .generic .nullable [inner]) :
      NullableLayer type
  | inside {type inner : SourceType} (hwraps : type.Wraps inner) (hinner : NullableLayer inner) :
      NullableLayer type

theorem NullableLayer.exists_wraps (h : type.NullableLayer) : ∃ inner, type.Wraps inner := by
  cases h with
  | outer hkind => exact ⟨_, .nullable hkind⟩
  | inside hwraps _ => exact ⟨_, hwraps⟩

/-- A type is wrapped around one other type at most. -/
theorem Wraps.unique {other : SourceType} (h : type.Wraps inner) (hother : type.Wraps other) :
    inner = other := by
  obtain ⟨family, hkind⟩ := h.exists_kind_eq
  obtain ⟨otherFamily, hotherKind⟩ := hother.exists_kind_eq
  rw [hkind] at hotherKind
  exact (List.cons.inj (TypeKind.generic.inj hotherKind).2).1

/-- A wrapper that is no nullable adds no layer. -/
theorem nullableLayer_iff_of_wraps (h : type.Wraps inner)
    (hkind : type.kind ≠ .generic .nullable [inner]) :
    type.NullableLayer ↔ inner.NullableLayer := by
  constructor
  · intro hlayer
    cases hlayer with
    | outer hnullable =>
      obtain rfl := h.unique (.nullable hnullable)
      contradiction
    | inside hwraps hinner =>
      obtain rfl := h.unique hwraps
      exact hinner
  · exact .inside h

end SourceType

theorem WellKnown.isNullable_reference (known : WellKnown) :
    known.reference.isNullable = false := by
  cases known <;> rfl

namespace Scope

theorem isNullable_external (name : String) (kind : TypeKind) :
    (external name kind).isNullable = false := by
  unfold external
  split
  · exact WellKnown.isNullable_reference _
  · rfl

theorem isNullable_externalGeneric {name : String} {args : List TypeRef}
    (h : ∀ arg, args = [arg] → WellKnown.ofName? name ≠ some .rawResponse) :
    (externalGeneric name args).isNullable = false := by
  unfold externalGeneric
  split
  · rename_i hname
    exact absurd hname (h _ rfl)
  · exact WellKnown.isNullable_reference _
  · rfl

/-- A generic type that is no wrapper is no nullable. -/
theorem isNullable_generic (config : Config) {name : String} {family : GenericFamily}
    {args : List TypeRef} (h : ∀ arg, args = [arg] →
      family ≠ .nullable ∧ family ≠ .deferred ∧ WellKnown.ofName? name ≠ some .rawResponse) :
    (generic config name family args).isNullable = false := by
  unfold generic
  split
  · exact absurd rfl (h _ rfl).1
  · rfl
  · rfl
  · rfl
  · exact absurd rfl (h _ rfl).2.1
  · split <;> rfl
  · exact isNullable_externalGeneric fun arg harg ↦ (h arg harg).2.2

theorem isNullable_resolve_of_not_wraps (h : ∀ inner, ¬ type.Wraps inner) :
    (scope.resolve type).isNullable = false := by
  rw [resolve_eq]
  split
  · rfl
  · cases hkind : type.kind with
    | generic family args =>
      rw [resolveKind, resolveList_eq_map]
      apply isNullable_generic
      intro arg harg
      obtain ⟨inner, rfl, rfl⟩ := List.map_eq_singleton_iff.1 harg
      refine ⟨?_, ?_, ?_⟩
      · rintro rfl
        exact h inner (.nullable hkind)
      · rintro rfl
        exact h inner (.deferred hkind)
      · intro hname
        exact h inner (.response family hkind hname)
    | custom => exact isNullable_external _ _
    | _ => rfl

/-- A response resolves to a nullable exactly if it has a nullable layer. -/
theorem isNullable_resolve_iff (hfree : scope.registry.FrameworkFree)
    (hconforms : ∀ inner : SourceType, inner.Occurs type → inner.Conforms scope.registry) :
    (scope.resolve type).isNullable = true ↔ type.NullableLayer := by
  induction type using SourceType.inductionOnParts with
  | step type ih =>
    by_cases hwraps : ∃ inner, type.Wraps inner
    · obtain ⟨inner, hinner⟩ := hwraps
      have hbelow := ih inner hinner.mem_parts fun other hoccurs ↦
        hconforms other (.part hinner.mem_parts hoccurs)
      rcases ReturnStrategy.resolve_of_wraps hfree (hconforms type .self) hinner with
        ⟨hkind, hresolve⟩ | ⟨hkind, hresolve⟩
      · rw [hresolve, TypeRef.isNullable_orNull]
        exact iff_of_true rfl (.outer hkind)
      · rw [hresolve, hbelow, SourceType.nullableLayer_iff_of_wraps hinner hkind]
    · rw [isNullable_resolve_of_not_wraps (not_exists.1 hwraps)]
      exact iff_of_false Bool.false_ne_true fun hlayer ↦ hwraps hlayer.exists_wraps

end Scope

/-! ## The null guard -/

namespace ReturnStrategy

/-- The statements return null for an empty response before anything else. -/
def StartsGuarded (stmts : List Stmt) : Prop :=
  stmts.head? = some nullGuard

theorem startsGuarded_returnNullable (value : TypeScript.Expr) (promised : Ty) :
    StartsGuarded (returnNullable value promised) ↔ promised.admitsNull = true := by
  unfold StartsGuarded returnNullable
  cases promised.admitsNull with
  | true => simp
  | false => simp [nullGuard]

/-- A client of either flavor guards exactly the promises of null. -/
theorem startsGuarded_readBack (flavor : Flavor) (strategy : ReturnStrategy) (returns : TypeRef) :
    StartsGuarded (flavor.readBack strategy (Ty.ofReturn strategy returns)) ↔
      (Ty.ofReturn strategy returns).admitsNull = true := by
  cases strategy with
  | scalar => cases flavor <;> exact startsGuarded_returnNullable _ _
  | structured => cases flavor <;> exact startsGuarded_returnNullable _ _
  | text =>
    have hguarded : StartsGuarded (flavor.readBack text (Ty.ofReturn text returns)) := by
      cases flavor <;> rfl
    exact iff_of_true hguarded rfl
  | _ =>
    refine iff_of_false ?_ Bool.false_ne_true
    cases flavor <;> simp [StartsGuarded, Flavor.readBack, readFetch, readAxios, nullGuard]

/-- The clients of both flavors start with the null guard exactly if they promise null, and they do
so for text and for scalars and structured data below a nullable layer. -/
theorem guards_empty_response (hfree : scope.registry.FrameworkFree)
    (hconforms : ∀ inner : SourceType, inner.Occurs type → inner.Conforms scope.registry) :
    let strategy := ofResponse (some type)
    let promised := Ty.ofReturn strategy (scope.resolve type)
    (∀ flavor : Flavor, StartsGuarded (flavor.readBack strategy promised) ↔
      promised.admitsNull = true) ∧
    (promised.admitsNull = true ↔
      strategy = .text ∨ (strategy = .scalar ∨ strategy = .structured) ∧ type.NullableLayer) := by
  intro strategy promised
  refine ⟨fun flavor ↦ startsGuarded_readBack flavor strategy _, ?_⟩
  have hnullable := Scope.isNullable_resolve_iff hfree hconforms
  rw [← Ty.admitsNull_ofRef] at hnullable
  subst promised
  cases strategy with
  | scalar => simpa [Ty.ofReturn] using hnullable
  | structured => simpa [Ty.ofReturn] using hnullable
  | text => simp [Ty.ofReturn, Ty.orNull, Ty.admitsNull, Ty.isNull]
  | _ => simp [Ty.ofReturn, Ty.admitsNull]

/-- An order that may be missing, behind the wrappers of an asynchronous action. -/
def eventualOrder : SourceType :=
  .closed "System.Threading.Tasks.Task\x601" "System.Threading.Tasks" .deferred
    [.closed "Microsoft.AspNetCore.Mvc.ActionResult\x601" "Microsoft.AspNetCore.Mvc" .custom
      [.closed "System.Nullable\x601" "System" .nullable [recordType]]]

theorem eventualOrder_conforms : ∀ inner : SourceType, inner.Occurs eventualOrder →
    inner.Conforms recordScope.registry := by
  have horder : recordType.Conforms recordScope.registry :=
    ⟨fun _ ↦ .custom, fun h ↦ absurd (by decide) h⟩
  refine SourceType.forall_occurs_iff.2
    ⟨⟨fun h ↦ absurd h (by decide), fun h ↦ absurd (by decide) h⟩, List.forall_mem_singleton.2 ?_⟩
  refine SourceType.forall_occurs_iff.2 ⟨⟨fun h ↦ absurd h (by decide), fun _ ↦ .generic _⟩,
    List.forall_mem_singleton.2 ?_⟩
  refine SourceType.forall_occurs_iff.2
    ⟨⟨fun h ↦ absurd h (by decide), fun h ↦ absurd (by decide) h⟩, List.forall_mem_singleton.2 ?_⟩
  exact SourceType.forall_occurs_iff.2 ⟨horder, nofun⟩

/-- Both flavors guard the promise of an order or null. -/
theorem guards_eventualOrder :
    recordScope.registry.FrameworkFree ∧
      (∀ inner : SourceType, inner.Occurs eventualOrder → inner.Conforms recordScope.registry) ∧
      ofResponse (some eventualOrder) = .structured ∧ eventualOrder.NullableLayer ∧
      ∀ flavor : Flavor, StartsGuarded (flavor.readBack .structured
        (Ty.ofReturn .structured (recordScope.resolve eventualOrder))) := by
  obtain ⟨hguards, hpromise⟩ :=
    guards_empty_response recordScope_frameworkFree eventualOrder_conforms
  have hlayer : eventualOrder.NullableLayer :=
    .inside (.deferred rfl) (.inside (.response _ rfl (by decide)) (.outer rfl))
  exact ⟨recordScope_frameworkFree, eventualOrder_conforms, rfl, hlayer,
    fun flavor ↦ (hguards flavor).2 (hpromise.2 (.inr ⟨.inr rfl, hlayer⟩))⟩

end ReturnStrategy

end TypedClient
