import TypedClient.Proofs.Callable.Reading
import TypedClient.Rendering.Types

/-!
# Types that admit null

A reference becomes a union exactly if it is a nullable, and then the union has
two members: the type of the reference below its nullable layers, which is
neither a union nor null itself, and null. Taking null away from the type of a
reference gives the type of what is below these layers.
-/

namespace TypedClient

namespace TypeRef

def isNullable : TypeRef → Bool
  | nullable _ => true
  | _ => false

@[simp]
theorem isNullable_orNull (type : TypeRef) : type.orNull.isNullable = true := by
  cases type <;> rfl

theorem core_of_isNullable_eq_false {type : TypeRef} (h : type.isNullable = false) :
    type.core = type := by
  cases type with
  | nullable inner => contradiction
  | _ => simp [core]

end TypeRef

namespace TypeScript.Ty

/-- The type without null, if it is a union with null. -/
def withoutNull : Ty → Ty
  | union members =>
    match members.filter (!·.isNull) with
    | [member] => member
    | members => union members
  | type => type

/-- Neither a union nor null. -/
def IsPlain (type : Ty) : Prop :=
  type.isUnion = false ∧ type.isNull = false

namespace IsPlain

variable {type : Ty}

theorem orNull_eq (h : type.IsPlain) : type.orNull = union [type, keyword .null] := by
  obtain ⟨hunion, hnull⟩ := h
  cases type with
  | union members => contradiction
  | keyword keyword =>
    cases keyword with
    | null => contradiction
    | _ => rfl
  | _ => rfl

theorem admitsNull_eq (h : type.IsPlain) : type.admitsNull = false := by
  cases type with
  | union members => exact absurd h.1 (by simp [isUnion])
  | _ => rfl

theorem withoutNull_eq (h : type.IsPlain) : type.withoutNull = type := by
  cases type with
  | union members => exact absurd h.1 (by simp [isUnion])
  | _ => rfl

end IsPlain

theorem isPlain_arrays (rank : Nat) {element : Ty} (h : rank ≠ 0) :
    (arrays rank element).IsPlain := by
  cases rank with
  | zero => contradiction
  | succ rank => exact ⟨rfl, rfl⟩

/-- A reference that is no nullable has a plain type. -/
theorem isPlain_ofRef {type : TypeRef} (h : type.isNullable = false) : (ofRef type).IsPlain := by
  cases type with
  | nullable inner => contradiction
  | scalar scalar => cases scalar <;> exact ⟨rfl, rfl⟩
  | array element rank =>
    rw [ofRef]
    exact isPlain_arrays _ (by omega)
  | _ => exact ⟨by simp [ofRef, isUnion], by simp [ofRef, isNull]⟩

/-- A nullable has the type below its layers and null. -/
theorem ofRef_of_isNullable {type : TypeRef} (h : type.isNullable = true) :
    (ofRef type.core).IsPlain ∧ ofRef type = union [ofRef type.core, keyword .null] := by
  induction type using TypeRef.inductionOnChildren with
  | step type ih =>
    cases type with
    | nullable inner =>
      rw [TypeRef.core, ofRef]
      cases hinner : inner.isNullable with
      | true =>
        obtain ⟨hplain, hunion⟩ := ih inner (by simp [TypeRef.children]) hinner
        refine ⟨hplain, ?_⟩
        rw [hunion]
        simp [orNull, isNull]
      | false =>
        rw [TypeRef.core_of_isNullable_eq_false hinner]
        exact ⟨isPlain_ofRef hinner, (isPlain_ofRef hinner).orNull_eq⟩
    | _ => contradiction

theorem admitsNull_ofRef (type : TypeRef) : (ofRef type).admitsNull = type.isNullable := by
  cases h : type.isNullable with
  | true =>
    rw [(ofRef_of_isNullable h).2]
    simp [admitsNull, isNull]
  | false => exact (isPlain_ofRef h).admitsNull_eq

theorem withoutNull_ofRef (type : TypeRef) : (ofRef type).withoutNull = ofRef type.core := by
  cases h : type.isNullable with
  | true =>
    obtain ⟨hplain, hunion⟩ := ofRef_of_isNullable h
    have hnull : (keyword .null).isNull = true := rfl
    simp [hunion, withoutNull, hplain.2, hnull]
  | false => rw [(isPlain_ofRef h).withoutNull_eq, TypeRef.core_of_isNullable_eq_false h]

end TypeScript.Ty

end TypedClient
