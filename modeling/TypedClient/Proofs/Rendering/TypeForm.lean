import Mathlib.Logic.Function.Iterate
import TypedClient.Proofs.Rendering.Nullability

/-!
# The form of types made from references

In the type of a reference, at any depth, null stands only behind another type
that is neither a union nor null itself, there are no other unions, records are
keyed by strings or by numbers, and undefined does not occur. How often a
reference is marked as nullable cannot be seen from its type, and an array has
as many layers as its rank says, but at least one.
-/

namespace TypedClient.TypeScript.Ty

/-- At any depth, the unions in the type are those of another type and null, and the keys of
records are strings or numbers. Null has no other place, and undefined has none at all. -/
inductive Tidy : Ty → Prop
  | keyword {word : Keyword} (hvalue : word ∉ [Keyword.null, Keyword.undefined]) :
      Tidy (.keyword word)
  | array {element : Ty} (helement : Tidy element) : Tidy (.array element)
  | orNull {type : Ty} (hplain : type.IsPlain) (htype : Tidy type) :
      Tidy (.union [type, .keyword .null])
  | object {properties : List Property}
      (hproperties : ∀ property ∈ properties, Tidy property.type) : Tidy (.object properties)
  | record {key value : Ty} (hkey : key ∈ [keyword .string, keyword .number])
      (hvalue : Tidy value) : Tidy (.record key value)
  | reference (name : String) {args : List Ty} (hargs : ∀ arg ∈ args, Tidy arg) :
      Tidy (.reference name args)

/-! ## Steps that keep the form -/

/-- Null is not added twice. -/
theorem orNull_union_null (type : Ty) :
    (union [type, keyword .null]).orNull = union [type, keyword .null] := by
  simp [orNull, isNull]

theorem tidy_orNull {type : Ty} (h : type.Tidy) : type.orNull.Tidy := by
  cases h with
  | orNull hplain htype =>
    rw [orNull_union_null]
    exact .orNull hplain htype
  | @keyword word hvalue =>
    have hplain : (keyword word).IsPlain := by
      refine ⟨rfl, ?_⟩
      cases word with
      | null => exact absurd List.mem_cons_self hvalue
      | _ => rfl
    rw [hplain.orNull_eq]
    exact .orNull hplain (.keyword hvalue)
  | array helement => exact .orNull ⟨rfl, rfl⟩ (.array helement)
  | object hproperties => exact .orNull ⟨rfl, rfl⟩ (.object hproperties)
  | record hkey hvalue => exact .orNull ⟨rfl, rfl⟩ (.record hkey hvalue)
  | reference name hargs => exact .orNull ⟨rfl, rfl⟩ (.reference name hargs)

theorem tidy_arrays {element : Ty} (h : element.Tidy) (rank : Nat) : (arrays rank element).Tidy := by
  induction rank with
  | zero => exact h
  | succ rank ih => exact .array ih

theorem recordKey_mem (key : Ty) : recordKey key ∈ [keyword .string, keyword .number] := by
  unfold recordKey
  split
  · exact List.mem_cons_of_mem _ List.mem_cons_self
  · exact List.mem_cons_self

theorem type_mem_of_mem_slotProperties {types : List Ty} {position : Nat} {property : Property}
    (h : property ∈ slotProperties position types) : property.type ∈ types := by
  induction types generalizing position with
  | nil => contradiction
  | cons type types ih =>
    rcases List.mem_cons.1 h with rfl | h
    · exact List.mem_cons_self
    · exact List.mem_cons_of_mem _ (ih h)

theorem tidy_of_mem_slotProperties {slots : List TypeRef} (h : ∀ slot ∈ slots, (ofRef slot).Tidy) :
    ∀ property ∈ slotProperties 1 (ofRefs slots), property.type.Tidy := by
  intro property hproperty
  have htype := type_mem_of_mem_slotProperties hproperty
  rw [ofRefs_eq_map] at htype
  obtain ⟨slot, hslot, heq⟩ := List.mem_map.1 htype
  exact heq ▸ h slot hslot

theorem tidy_ofShape {shape : TupleShape TypeRef} (h : ∀ slot ∈ shape.unfold, (ofRef slot).Tidy) :
    (object (ofShape shape)).Tidy := by
  induction shape with
  | last items => exact .object (tidy_of_mem_slotProperties h)
  | more items rest ih =>
    obtain ⟨hitems, hrest⟩ := List.forall_mem_append.1 h
    apply Tidy.object
    rw [ofShape]
    exact List.forall_mem_append.2
      ⟨tidy_of_mem_slotProperties hitems, List.forall_mem_singleton.2 (ih hrest)⟩

theorem tidy_ofRef (type : TypeRef) : (ofRef type).Tidy := by
  induction type using TypeRef.inductionOnChildren with
  | step type ih =>
    cases type with
    | scalar scalar =>
      rw [ofRef]
      cases scalar <;> exact .keyword (by decide)
    | named space name args =>
      rw [ofRef, ofRefs_eq_map]
      exact .reference _ (List.forall_mem_map.2 ih)
    | array element rank =>
      rw [ofRef]
      exact tidy_arrays (ih element List.mem_cons_self) _
    | nullable inner =>
      rw [ofRef]
      exact tidy_orNull (ih inner List.mem_cons_self)
    | tuple shape =>
      rw [ofRef]
      exact tidy_ofShape ih
    | dictionary key value =>
      rw [ofRef]
      exact .record (recordKey_mem _) (ih value (List.mem_cons_of_mem _ List.mem_cons_self))
    | sequence element =>
      rw [ofRef]
      exact .reference _ (List.forall_mem_singleton.2 (ih element List.mem_cons_self))
    | rawResponse =>
      rw [ofRef]
      exact .reference _ (List.forall_mem_nil _)
    | parameter name =>
      rw [ofRef]
      exact .reference _ (List.forall_mem_nil _)
    | looseObject =>
      rw [ofRef]
      exact .keyword (by decide)
    | void =>
      rw [ofRef]
      exact .keyword (by decide)

/-! ## Unions and layers -/

theorem isUnion_ofRef (type : TypeRef) : (ofRef type).isUnion = type.isNullable := by
  cases h : type.isNullable with
  | true =>
    rw [(ofRef_of_isNullable h).2]
    rfl
  | false => exact (isPlain_ofRef h).1

theorem arrays_eq_iterate (rank : Nat) (element : Ty) :
    arrays rank element = array^[rank] element := by
  induction rank with
  | zero => rfl
  | succ rank ih => rw [arrays, ih, Function.iterate_succ_apply']

theorem sizeOf_iterate_array (layers : Nat) (element : Ty) :
    sizeOf (array^[layers] element) = layers + sizeOf element := by
  induction layers with
  | zero => simp
  | succ layers ih =>
    rw [Function.iterate_succ_apply', array.sizeOf_spec, ih]
    omega

/-- A layer more is another type. -/
theorem iterate_array_injective (element : Ty) :
    Function.Injective fun layers ↦ array^[layers] element := by
  intro left right h
  have hsize := congrArg sizeOf h
  simp only [sizeOf_iterate_array] at hsize
  omega

/-- The type of a reference is tidy at any depth. It is a union exactly if the reference is a
nullable, and then it joins null to the type of what is below all nullable layers; and an array has
just the layers that its rank asks for, of which there is at least one. -/
theorem ofRef_normal_form (type : TypeRef) :
    (ofRef type).Tidy ∧ ((ofRef type).isUnion = true ↔ type.isNullable = true) ∧
      (∀ inner : TypeRef, ofRef (.nullable inner) = union [ofRef inner.core, keyword .null]) ∧
      ∀ (element : TypeRef) (rank layers : Nat),
        ofRef (.array element rank) = array^[layers] (ofRef element) ↔ layers = max rank 1 := by
  refine ⟨tidy_ofRef type, by rw [isUnion_ofRef], ?_, ?_⟩
  · intro inner
    have hnullable : (TypeRef.nullable inner).isNullable = true := rfl
    have hunion := (ofRef_of_isNullable hnullable).2
    rwa [TypeRef.core] at hunion
  · intro element rank layers
    rw [ofRef, arrays_eq_iterate, (iterate_array_injective (ofRef element)).eq_iff]
    exact eq_comm

end TypedClient.TypeScript.Ty
