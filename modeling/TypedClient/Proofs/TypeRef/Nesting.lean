import TypedClient.TypeRef

/-!
# References inside a reference

The children of a reference are the references one step inside it, from left to
right; the slots of a tuple count in positional order, whatever level holds
them. Every node other than the reference itself lies in exactly one child, and
the nodes that point into the client are the targets of the reference.
-/

namespace TypedClient

namespace TupleShape

theorem sizeOf_lt_of_mem_unfold {α : Type} [SizeOf α] {slot : α} {shape : TupleShape α}
    (h : slot ∈ shape.unfold) : sizeOf slot < sizeOf shape := by
  induction shape with
  | last items =>
    have hitems := List.sizeOf_lt_of_mem (show slot ∈ items from h)
    simp
    omega
  | more items rest ih =>
    rw [unfold, List.mem_append] at h
    rcases h with h | h
    · have hitems := List.sizeOf_lt_of_mem h
      simp
      omega
    · have hrest := ih h
      simp
      omega

end TupleShape

namespace TypeRef

def children : TypeRef → List TypeRef
  | named _ _ args => args
  | array element _ => [element]
  | nullable inner => [inner]
  | tuple shape => shape.unfold
  | dictionary key value => [key, value]
  | sequence element => [element]
  | _ => []

theorem sizeOf_lt_of_mem_children {child type : TypeRef} (h : child ∈ type.children) :
    sizeOf child < sizeOf type := by
  cases type with
  | named space name args =>
    have hargs := List.sizeOf_lt_of_mem (show child ∈ args from h)
    simp
    omega
  | tuple shape =>
    have hshape := TupleShape.sizeOf_lt_of_mem_unfold (show child ∈ shape.unfold from h)
    simp
    omega
  | dictionary key value =>
    simp only [children, List.mem_cons, List.not_mem_nil, or_false] at h
    rw [dictionary.sizeOf_spec]
    rcases h with rfl | rfl
    · omega
    · omega
  | array element rank =>
    simp only [children, List.mem_singleton] at h
    subst h
    simp
    omega
  | _ => simp_all [children]

/-- A property of references that passes from the children to the whole holds of all of them. -/
@[elab_as_elim]
theorem inductionOnChildren {motive : TypeRef → Prop}
    (step : ∀ type, (∀ child ∈ type.children, motive child) → motive type)
    (type : TypeRef) : motive type :=
  step type fun child h ↦
    have := sizeOf_lt_of_mem_children h
    inductionOnChildren step child
termination_by type

theorem nodes_eq (type : TypeRef) : type.nodes = type :: type.children.flatMap nodes := by
  cases type <;> simp [nodes, children]

/-! ## Targets -/

/-- Client namespace and name that a node points at. -/
def target? : TypeRef → Option (String × String)
  | named (some space) name _ => some (space, name)
  | _ => none

/-- What the nodes of a reference point at. -/
def targets (type : TypeRef) : List (String × String) :=
  type.nodes.filterMap target?

theorem targets_eq (type : TypeRef) :
    type.targets = type.target?.toList ++ type.children.flatMap targets := by
  rw [targets, nodes_eq, List.filterMap_cons, List.filterMap_flatMap]
  cases type.target? <;> rfl

@[simp]
theorem targets_named_some (space name : String) (args : List TypeRef) :
    (named (some space) name args).targets = (space, name) :: args.flatMap targets := by
  rw [targets_eq]
  rfl

@[simp]
theorem targets_scalar (scalar : Scalar) : (TypeRef.scalar scalar).targets = [] := rfl

@[simp]
theorem targets_parameter (name : String) : (parameter name).targets = [] := rfl

@[simp]
theorem targets_void : void.targets = [] := rfl

/-- A node without a target of its own points where its children point. -/
theorem targets_of_target?_eq_none {type : TypeRef} (h : type.target? = none) :
    type.targets = type.children.flatMap targets := by
  rw [targets_eq, h]
  rfl

@[simp]
theorem targets_orNull (type : TypeRef) : type.orNull.targets = type.targets := by
  cases type with
  | nullable inner => rfl
  | _ =>
    rw [orNull, targets_of_target?_eq_none rfl]
    · simp [children]
    · simp

end TypeRef

end TypedClient
