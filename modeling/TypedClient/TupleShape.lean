/-!
# Tuple shapes

A tuple has at most seven positional slots; the slots beyond the seventh form a
tuple of their own behind the others. Folding cuts a list of slots into such
levels and unfolding puts the list together again.
-/

namespace TypedClient

inductive TupleShape (α : Type) where
  /-- The last level. -/
  | last (items : List α)
  /-- A level with further slots behind it. -/
  | more (items : List α) (rest : TupleShape α)
  deriving DecidableEq

namespace TupleShape

variable {α β : Type}

/-- Number of positional slots on one level. -/
def positionalLimit : Nat := 7

def fold (slots : List α) : TupleShape α :=
  if slots.length ≤ positionalLimit then last slots
  else more (slots.take positionalLimit) (fold (slots.drop positionalLimit))
termination_by slots.length
decreasing_by
  simp only [positionalLimit, List.length_drop] at *
  omega

/-- All slots in positional order. -/
def unfold : TupleShape α → List α
  | last items => items
  | more items rest => items ++ unfold rest

def items : TupleShape α → List α
  | last items => items
  | more items _ => items

def rest? : TupleShape α → Option (TupleShape α)
  | last _ => none
  | more _ rest => some rest

/-- Number of slots on all levels, counted level by level. -/
def length : TupleShape α → Nat
  | last items => items.length
  | more items rest => items.length + length rest

def isEmpty (shape : TupleShape α) : Bool :=
  shape.length == 0

def map (f : α → β) : TupleShape α → TupleShape β
  | last items => last (items.map f)
  | more items rest => more (items.map f) (map f rest)

/-- Name of a slot, counted from one on its level. -/
def fieldName (position : Nat) : String :=
  "item" ++ toString position

def restName : String := "rest"

@[simp]
theorem length_unfold (shape : TupleShape α) : shape.unfold.length = shape.length := by
  induction shape with
  | last items => rfl
  | more items rest ih => simp [unfold, length, ih]

@[simp]
theorem unfold_map (f : α → β) (shape : TupleShape α) :
    (shape.map f).unfold = shape.unfold.map f := by
  induction shape with
  | last items => rfl
  | more items rest ih => simp [unfold, map, ih]

@[simp]
theorem unfold_fold (slots : List α) : (fold slots).unfold = slots := by
  fun_induction fold slots with
  | case1 => rfl
  | case2 slots _ ih => rw [unfold, ih, List.take_append_drop]

end TupleShape

end TypedClient
