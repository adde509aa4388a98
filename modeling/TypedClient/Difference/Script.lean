import TypedClient.Difference.Edit
import TypedClient.Difference.Frontier

/-!
# A script between two lists of lines

The lines with which both lists start, and those with which both end, are kept.
What is left between them is cut in two and treated in the same way, until one
side of it is empty. The main statements say that the script leads from the old
lines to the new ones.
-/

namespace TypedClient.Difference

/-- The longest list with which both lists start. -/
def commonLead : List String → List String → List String
  | x :: xs, y :: ys => if x = y then x :: commonLead xs ys else []
  | _, _ => []

def commonTail (old new : List String) : List String :=
  (commonLead old.reverse new.reverse).reverse

theorem commonLead_prefix_left (old new : List String) : commonLead old new <+: old := by
  fun_induction commonLead old new with
  | case1 xs y ys ih => exact (List.prefix_cons_inj y).2 ih
  | case2 => exact List.nil_prefix
  | case3 => exact List.nil_prefix

theorem commonLead_prefix_right (old new : List String) : commonLead old new <+: new := by
  fun_induction commonLead old new with
  | case1 xs y ys ih => exact (List.prefix_cons_inj y).2 ih
  | case2 => exact List.nil_prefix
  | case3 => exact List.nil_prefix

theorem commonTail_suffix_left (old new : List String) : commonTail old new <:+ old := by
  simpa [commonTail] using List.reverse_suffix.2 (commonLead_prefix_left old.reverse new.reverse)

theorem commonTail_suffix_right (old new : List String) : commonTail old new <:+ new := by
  simpa [commonTail] using List.reverse_suffix.2 (commonLead_prefix_right old.reverse new.reverse)

theorem drop_of_append {xs ys zs : List String} (h : xs ++ ys = zs) : zs.drop xs.length = ys := by
  simp [← h]

theorem take_of_append {xs ys zs : List String} (h : xs ++ ys = zs) :
    zs.take (zs.length - ys.length) = xs := by
  simp [← h]

/-- Two lists without what they have in common at the start and at the end. -/
structure Trimmed where
  lead : List String
  old : List String
  new : List String
  tail : List String

namespace Trimmed

def ofLists (old new : List String) : Trimmed :=
  let lead := commonLead old new
  let old := old.drop lead.length
  let new := new.drop lead.length
  let tail := commonTail old new
  { lead
    old := old.take (old.length - tail.length)
    new := new.take (new.length - tail.length)
    tail }

theorem lead_old_tail (old new : List String) :
    (ofLists old new).lead ++ ((ofLists old new).old ++ (ofLists old new).tail) = old := by
  obtain ⟨rest, hrest⟩ := commonLead_prefix_left old new
  obtain ⟨middle, hmiddle⟩ := commonTail_suffix_left rest (new.drop (commonLead old new).length)
  simp only [ofLists, drop_of_append hrest, take_of_append hmiddle, hmiddle, hrest]

theorem lead_new_tail (old new : List String) :
    (ofLists old new).lead ++ ((ofLists old new).new ++ (ofLists old new).tail) = new := by
  obtain ⟨rest, hrest⟩ := commonLead_prefix_right old new
  obtain ⟨middle, hmiddle⟩ := commonTail_suffix_right (old.drop (commonLead old new).length) rest
  simp only [ofLists, drop_of_append hrest, take_of_append hmiddle, hmiddle, hrest]

theorem length_old_le (old new : List String) : (ofLists old new).old.length ≤ old.length := by
  have h := congrArg List.length (lead_old_tail old new)
  simp only [List.length_append] at h
  omega

theorem length_new_le (old new : List String) : (ofLists old new).new.length ≤ new.length := by
  have h := congrArg List.length (lead_new_tail old new)
  simp only [List.length_append] at h
  omega

end Trimmed

/-- A place to cut two lists, with a smaller problem on either side. -/
structure Cut (old new : List String) where
  oldCount : Nat
  newCount : Nat
  before_lt : (old.take oldCount).length + (new.take newCount).length < old.length + new.length
  after_lt : (old.drop oldCount).length + (new.drop newCount).length < old.length + new.length

def innerCut? (old new : List String) : Option (Cut old new) :=
  match cut? old new with
  | some (x, y) =>
    if h : (old.take x).length + (new.take y).length < old.length + new.length ∧
        (old.drop x).length + (new.drop y).length < old.length + new.length then
      some ⟨x, y, h.1, h.2⟩
    else none
  | none => none

def script (old new : List String) : List Edit :=
  let trimmed := Trimmed.ofLists old new
  keeps trimmed.lead ++
    (if trimmed.old = [] ∨ trimmed.new = [] then replacement trimmed.old trimmed.new
    else
      match innerCut? trimmed.old trimmed.new with
      | some cut =>
        script (trimmed.old.take cut.oldCount) (trimmed.new.take cut.newCount) ++
          script (trimmed.old.drop cut.oldCount) (trimmed.new.drop cut.newCount)
      | none => replacement trimmed.old trimmed.new) ++
    keeps trimmed.tail
termination_by old.length + new.length
decreasing_by
  · exact Nat.lt_of_lt_of_le cut.before_lt
      (Nat.add_le_add (Trimmed.length_old_le old new) (Trimmed.length_new_le old new))
  · exact Nat.lt_of_lt_of_le cut.after_lt
      (Nat.add_le_add (Trimmed.length_old_le old new) (Trimmed.length_new_le old new))

/-- The script starts from the old lines. -/
theorem flatMap_old_script (old new : List String) : (script old new).flatMap Edit.old = old := by
  fun_induction script old new with
  | case1 old new trimmed ih₁ ih₂ =>
    refine Eq.trans ?_ (Trimmed.lead_old_tail old new)
    simp only [List.flatMap_append, flatMap_old_keeps, List.append_assoc]
    congr 2
    split
    · simp [trimmed]
    · split
      · rename_i cut _
        rw [List.flatMap_append, ih₁ cut, ih₂ cut, List.take_append_drop]
      · simp [trimmed]

/-- The script ends with the new lines. -/
theorem flatMap_new_script (old new : List String) : (script old new).flatMap Edit.new = new := by
  fun_induction script old new with
  | case1 old new trimmed ih₁ ih₂ =>
    refine Eq.trans ?_ (Trimmed.lead_new_tail old new)
    simp only [List.flatMap_append, flatMap_new_keeps, List.append_assoc]
    congr 2
    split
    · simp [trimmed]
    · split
      · rename_i cut _
        rw [List.flatMap_append, ih₁ cut, ih₂ cut, List.take_append_drop]
      · simp [trimmed]

end TypedClient.Difference
