/-!
# Edit scripts

A script says how to get from one list of lines to another. Lines stay or go one
at a time, while the lines that come in at one place stay together as a block.
-/

namespace TypedClient.Difference

inductive Edit where
  | keep (line : String)
  | delete (line : String)
  | insert (lines : List String)
  deriving DecidableEq, Repr

namespace Edit

/-- What the edit takes from the old lines. -/
def old : Edit → List String
  | keep line => [line]
  | delete line => [line]
  | insert _ => []

/-- What the edit adds to the new lines. -/
def new : Edit → List String
  | keep line => [line]
  | delete _ => []
  | insert lines => lines

end Edit

def keeps (lines : List String) : List Edit :=
  lines.map .keep

def deletes (lines : List String) : List Edit :=
  lines.map .delete

/-- All old lines go, and the new lines come in as one block. -/
def replacement (old new : List String) : List Edit :=
  deletes old ++ if new = [] then [] else [.insert new]

@[simp]
theorem flatMap_old_keeps (lines : List String) : (keeps lines).flatMap Edit.old = lines := by
  induction lines with
  | nil => rfl
  | cons line lines ih => simpa [keeps, Edit.old] using ih

@[simp]
theorem flatMap_new_keeps (lines : List String) : (keeps lines).flatMap Edit.new = lines := by
  induction lines with
  | nil => rfl
  | cons line lines ih => simpa [keeps, Edit.new] using ih

@[simp]
theorem flatMap_old_deletes (lines : List String) : (deletes lines).flatMap Edit.old = lines := by
  induction lines with
  | nil => rfl
  | cons line lines ih => simpa [deletes, Edit.old] using ih

@[simp]
theorem flatMap_new_deletes (lines : List String) : (deletes lines).flatMap Edit.new = [] := by
  induction lines with
  | nil => rfl
  | cons line lines ih => exact ih

@[simp]
theorem flatMap_old_replacement (old new : List String) :
    (replacement old new).flatMap Edit.old = old := by
  unfold replacement
  split <;> simp [Edit.old]

@[simp]
theorem flatMap_new_replacement (old new : List String) :
    (replacement old new).flatMap Edit.new = new := by
  unfold replacement
  split <;> simp_all [Edit.new]

end TypedClient.Difference
