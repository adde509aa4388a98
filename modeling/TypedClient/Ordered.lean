/-!
# Order and repetition in lists

Four ways to arrange a list by a key: sorting keeps elements of equal keys in
their order, the ascending list of some names has each name once, the firsts of
a list are the elements whose key has not occurred before, and gathering puts
the elements of each key into one group, which is found in the order of the keys.
-/

namespace TypedClient.Ordered

variable {α : Type}

/-- Puts an element in front of the first one whose key is not below its own. -/
def insertBy (key : α → String) (x : α) : List α → List α
  | [] => [x]
  | y :: ys => if key y < key x then y :: insertBy key x ys else x :: y :: ys

def sortBy (key : α → String) (xs : List α) : List α :=
  xs.foldr (insertBy key) []

def insertName (x : String) : List String → List String
  | [] => [x]
  | y :: ys => if x < y then x :: y :: ys else if x = y then y :: ys else y :: insertName x ys

def ascending (names : List String) : List String :=
  names.foldr insertName []

/-- The elements whose key is neither among `seen` nor the key of an earlier element. -/
def firstsFrom (key : α → String) (seen : List String) : List α → List α
  | [] => []
  | x :: xs =>
    if key x ∈ seen then firstsFrom key seen xs
    else x :: firstsFrom key (key x :: seen) xs

def firstsBy (key : α → String) (xs : List α) : List α :=
  firstsFrom key [] xs

section Gather

variable {κ β : Type} [LT κ] [DecidableLT κ] [DecidableEq κ]

/-- Changes the entry of a key. A key without an entry gets a fresh one before the change, in the
place that keeps the keys in ascending order. -/
def upsert (key : κ) (fresh : β) (change : β → β) : List (κ × β) → List (κ × β)
  | [] => [(key, change fresh)]
  | entry :: entries =>
    if key < entry.1 then (key, change fresh) :: entry :: entries
    else if key = entry.1 then (entry.1, change entry.2) :: entries
    else entry :: upsert key fresh change entries

/-- Adds the elements, one after the other, to the groups of their keys. -/
def gather (key : α → κ) (fresh : α → β) (add : α → β → β) (xs : List α) : List (κ × β) :=
  xs.foldl (fun groups x => upsert (key x) (fresh x) (add x) groups) []

end Gather

theorem mem_insertName {x y : String} {names : List String} :
    y ∈ insertName x names ↔ y = x ∨ y ∈ names := by
  induction names with
  | nil => simp [insertName]
  | cons z names ih =>
    rw [insertName]
    split
    · simp
    · split
      · rename_i _ hxz
        simp [hxz]
      · simp [ih, or_left_comm]

@[simp]
theorem mem_ascending {y : String} {names : List String} : y ∈ ascending names ↔ y ∈ names := by
  induction names with
  | nil => simp [ascending]
  | cons x names ih =>
    rw [ascending, List.foldr_cons, mem_insertName, List.mem_cons]
    exact or_congr_right ih

end TypedClient.Ordered
