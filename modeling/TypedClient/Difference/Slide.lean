import TypedClient.Difference.Edit

/-!
# Where insertions are shown

Where a block of new lines stands between kept lines that look alike, a script
can show it in several places. A block slides up past every line that equals its
own last one, and past deleted lines; then it slides down in the same way as far
as it can. A block that it meets joins it.
-/

namespace TypedClient.Difference

/-- A script around a block of new lines; the edits before the block are in reverse. -/
structure Placement where
  before : List Edit
  block : List String
  after : List Edit

def slideUp : List Edit → List String → List Edit → Placement
  | [], block, after => ⟨[], block, after⟩
  | .keep line :: before, block, after =>
    if block.getLast? = some line then slideUp before (line :: block.dropLast) (.keep line :: after)
    else ⟨.keep line :: before, block, after⟩
  | .delete line :: before, block, after => slideUp before block (.delete line :: after)
  | .insert lines :: before, block, after => slideUp before (lines ++ block) after

def slideDown : List Edit → List String → List Edit → Placement
  | before, block, [] => ⟨before, block, []⟩
  | before, block, .keep line :: after =>
    if block.head? = some line then slideDown (.keep line :: before) (block.tail ++ [line]) after
    else ⟨before, block, .keep line :: after⟩
  | before, block, .delete line :: after => slideDown (.delete line :: before) block after
  | before, block, .insert lines :: after => slideDown before (block ++ lines) after

def slide (before : List Edit) (block : List String) (after : List Edit) : Placement :=
  let raised := slideUp before block after
  slideDown raised.before raised.block raised.after

def Edit.isInsert : Edit → Bool
  | insert _ => true
  | _ => false

theorem countP_slideUp (before : List Edit) (block : List String) (after : List Edit) :
    (slideUp before block after).after.countP Edit.isInsert = after.countP Edit.isInsert := by
  fun_induction slideUp before block after <;> simp_all [Edit.isInsert]

theorem countP_slideDown_le (before : List Edit) (block : List String) (after : List Edit) :
    (slideDown before block after).after.countP Edit.isInsert ≤ after.countP Edit.isInsert := by
  fun_induction slideDown before block after with
  | case1 => exact Nat.le_refl _
  | case2 before block line after _ ih => simpa [Edit.isInsert] using ih
  | case3 => exact Nat.le_refl _
  | case4 before block line after ih => simpa [Edit.isInsert] using ih
  | case5 before block lines after ih =>
    exact Nat.le_trans ih (List.Sublist.countP_le (List.sublist_cons_self _ _))

theorem countP_slide_le (before : List Edit) (block : List String) (after : List Edit) :
    (slide before block after).after.countP Edit.isInsert ≤ after.countP Edit.isInsert :=
  countP_slideUp before block after ▸ countP_slideDown_le _ _ _

/-- Slides the blocks of a script one after the other, from the first to the last; the edits
that are already done are in reverse. -/
def settleFrom (done : List Edit) : List Edit → List Edit
  | [] => done.reverse
  | .insert block :: rest =>
    let placement := slide done block rest
    settleFrom (.insert placement.block :: placement.before) placement.after
  | .keep line :: rest => settleFrom (.keep line :: done) rest
  | .delete line :: rest => settleFrom (.delete line :: done) rest
termination_by rest => (rest.countP Edit.isInsert, rest.length)
decreasing_by
  · have hle := countP_slide_le done block rest
    have hlt : (slide done block rest).after.countP Edit.isInsert <
        (Edit.insert block :: rest).countP Edit.isInsert := by
      rw [List.countP_cons_of_pos rfl]
      exact Nat.lt_succ_of_le hle
    exact Prod.Lex.left _ _ hlt
  · rw [List.countP_cons_of_neg (by simp [Edit.isInsert])]
    exact Prod.Lex.right _ (Nat.lt_succ_self _)
  · rw [List.countP_cons_of_neg (by simp [Edit.isInsert])]
    exact Prod.Lex.right _ (Nat.lt_succ_self _)

def settle (script : List Edit) : List Edit :=
  settleFrom [] script

end TypedClient.Difference
