import TypedClient.TupleShape

/-!
# Walking through the slots

A walk takes one slot after the other. What is still ahead of it is a shape
again: a step takes the first slot out of its level, and passes over a level
that has none left.
-/

namespace TypedClient.TupleShape

variable {α : Type}

/-- The first slot and what is ahead behind it. -/
def next? : TupleShape α → Option (α × TupleShape α)
  | last [] => none
  | last (slot :: items) => some (slot, last items)
  | more [] rest => next? rest
  | more (slot :: items) rest => some (slot, more items rest)

theorem unfold_of_next?_eq_none {shape : TupleShape α} (h : shape.next? = none) :
    shape.unfold = [] := by
  fun_induction next? shape with
  | case1 => rfl
  | case3 rest ih => exact ih h
  | _ => contradiction

theorem unfold_of_next?_eq_some {shape ahead : TupleShape α} {slot : α}
    (h : shape.next? = some (slot, ahead)) : shape.unfold = slot :: ahead.unfold := by
  fun_induction next? shape with
  | case1 => contradiction
  | case3 rest ih => exact ih h
  | _ =>
    obtain ⟨rfl, rfl⟩ := Prod.mk.inj (Option.some.inj h)
    rfl

/-- The slots in the order in which a walk takes them. -/
def iter (shape : TupleShape α) : List α :=
  match _hnext : shape.next? with
  | none => []
  | some (slot, ahead) => slot :: iter ahead
termination_by shape.length
decreasing_by
  rw [← length_unfold shape, ← length_unfold ahead, unfold_of_next?_eq_some _hnext, List.length_cons]
  exact Nat.lt_succ_self _

end TypedClient.TupleShape
