import Mathlib.Data.Set.Function
import TypedClient.TupleShape.Walk

/-!
# Lists and folded shapes

Among all shapes with the same slots one is folded: its levels are full up to
the last one, and no level is empty behind another one. Folding a list makes
that shape, and unfolding a folded shape gives the list back, so lists of slots
and folded shapes correspond. Counting, unfolding and walking through a shape
agree on every shape, folded or not.
-/

namespace TypedClient.TupleShape

variable {α β : Type}

/-- A shape as folding makes it. -/
inductive IsFolded : TupleShape α → Prop
  | last {items : List α} (hfits : items.length ≤ positionalLimit) : IsFolded (last items)
  | more {items : List α} {rest : TupleShape α} (hfull : items.length = positionalLimit)
      (hnonempty : rest.isEmpty = false) (hrest : IsFolded rest) : IsFolded (more items rest)

theorem isEmpty_eq_false_iff {shape : TupleShape α} : shape.isEmpty = false ↔ 0 < shape.length := by
  rw [isEmpty, beq_eq_false_iff_ne, Nat.pos_iff_ne_zero]

@[simp]
theorem length_fold (slots : List α) : (fold slots).length = slots.length := by
  rw [← length_unfold, unfold_fold]

theorem isFolded_fold (slots : List α) : (fold slots).IsFolded := by
  fun_induction fold slots with
  | case1 slots hfits => exact .last hfits
  | case2 slots hlong ih =>
    refine .more ?_ ?_ ih
    · rw [List.length_take]
      omega
    · rw [isEmpty_eq_false_iff, length_fold, List.length_drop]
      omega

theorem IsFolded.fold_unfold {shape : TupleShape α} (h : shape.IsFolded) : fold shape.unfold = shape := by
  induction h with
  | last hfits => rw [unfold, fold, if_pos hfits]
  | @more items rest hfull hnonempty _ ih =>
    have hlong : ¬ (items ++ rest.unfold).length ≤ positionalLimit := by
      rw [isEmpty_eq_false_iff, ← length_unfold] at hnonempty
      rw [List.length_append]
      omega
    rw [unfold, fold, if_neg hlong, List.take_left' hfull, List.drop_left' hfull, ih]

theorem fold_unfold_eq_self_iff {shape : TupleShape α} :
    fold shape.unfold = shape ↔ shape.IsFolded := by
  constructor
  · intro h
    rw [← h]
    exact isFolded_fold _
  · exact IsFolded.fold_unfold

/-- Unfolding tells folded shapes apart. -/
theorem bijOn_fold : Set.BijOn fold Set.univ {shape : TupleShape α | shape.IsFolded} := by
  refine ⟨fun slots _ ↦ isFolded_fold slots, ?_, ?_⟩
  · exact (Function.LeftInverse.injective unfold_fold).injOn
  · intro shape hfolded
    exact ⟨shape.unfold, Set.mem_univ _, IsFolded.fold_unfold hfolded⟩

theorem fold_map (f : α → β) (slots : List α) : fold (slots.map f) = (fold slots).map f := by
  fun_induction fold slots with
  | case1 slots hfits => rw [fold, List.length_map, if_pos hfits, map]
  | case2 slots hlong ih =>
    rw [fold, List.length_map, if_neg hlong, map, ← ih, List.map_take, List.map_drop]

/-- One step of a walk leaves the other slots in their order, so the whole walk meets them all. -/
theorem iter_eq_unfold (shape : TupleShape α) : shape.iter = shape.unfold := by
  fun_induction iter shape with
  | case1 shape hend => exact (unfold_of_next?_eq_none hend).symm
  | case2 shape slot ahead hnext ih => rw [ih, unfold_of_next?_eq_some hnext]

/-- Lists of slots correspond to folded shapes, by folding and by unfolding; on any shape the count
and the walk agree with unfolding. -/
theorem slots_correspond_to_folded :
    (∀ slots : List α, (fold slots).IsFolded ∧ (fold slots).unfold = slots) ∧
      (∀ shape : TupleShape α, fold shape.unfold = shape ↔ shape.IsFolded) ∧
      (∀ shape : TupleShape α,
        shape.length = shape.unfold.length ∧ shape.iter = shape.unfold) ∧
      Set.BijOn fold Set.univ {shape : TupleShape α | shape.IsFolded} := by
  refine ⟨?_, fun shape ↦ fold_unfold_eq_self_iff, ?_, bijOn_fold⟩
  · exact fun slots ↦ ⟨isFolded_fold slots, unfold_fold slots⟩
  · exact fun shape ↦ ⟨(length_unfold shape).symm, iter_eq_unfold shape⟩

end TypedClient.TupleShape
