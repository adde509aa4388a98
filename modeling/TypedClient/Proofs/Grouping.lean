import Mathlib.Data.List.Perm.Basic
import TypedClient.Proofs.Ordered

/-!
# Groups of a list by a key

A list falls into groups, one for each key that its elements have. Together the
groups are the list again, up to order; a group that is looked up by its key is
found once; and sorting by the key does not change the order inside a group, so
lists with the same groups are sorted into the same list.
-/

namespace TypedClient.Ordered

variable {α β κ : Type}

/-! ## Sorted lists -/

theorem pairwise_insertBy {key : α → String} {x : α} {xs : List α}
    (h : xs.Pairwise fun y z ↦ key y ≤ key z) :
    (insertBy key x xs).Pairwise fun y z ↦ key y ≤ key z := by
  induction xs with
  | nil => exact List.pairwise_singleton _ _
  | cons y ys ih =>
    obtain ⟨hbelow, hys⟩ := List.pairwise_cons.1 h
    rw [insertBy]
    split
    · rename_i hyx
      rw [List.pairwise_cons]
      refine ⟨?_, ih hys⟩
      intro z hz
      rcases List.mem_cons.1 ((perm_insertBy key x ys).mem_iff.1 hz) with rfl | hz
      · exact Std.le_of_lt hyx
      · exact hbelow z hz
    · rename_i hyx
      have hxy := String.not_lt.1 hyx
      rw [List.pairwise_cons]
      refine ⟨?_, h⟩
      intro z hz
      rcases List.mem_cons.1 hz with rfl | hz
      · exact hxy
      · exact String.le_trans hxy (hbelow z hz)

theorem pairwise_sortBy (key : α → String) (xs : List α) :
    (sortBy key xs).Pairwise fun x y ↦ key x ≤ key y := by
  induction xs with
  | nil => exact List.Pairwise.nil
  | cons x xs ih => exact pairwise_insertBy ih

/-- A list in ascending order that shows no key twice is in strictly ascending order. -/
theorem pairwise_lt_of_nodup {key : α → String} {xs : List α}
    (hle : xs.Pairwise fun x y ↦ key x ≤ key y) (hnodup : (xs.map key).Nodup) :
    xs.Pairwise fun x y ↦ key x < key y := by
  have hne : xs.Pairwise fun x y ↦ key x ≠ key y := List.pairwise_map.1 hnodup
  apply (hle.and hne).imp
  intro x y h
  apply String.not_le.1
  intro hge
  exact h.2 (String.le_antisymm h.1 hge)

theorem nodup_of_pairwise_lt {key : α → String} {xs : List α}
    (h : xs.Pairwise fun x y ↦ key x < key y) : (xs.map key).Nodup := by
  rw [List.Nodup, List.pairwise_map]
  apply h.imp
  intro x y hlt heq
  exact String.lt_irrefl _ (heq ▸ hlt)

theorem nodup_ascending (names : List String) : (ascending names).Nodup := by
  have hnodup : ((ascending names).map id).Nodup := nodup_of_pairwise_lt (pairwise_ascending names)
  rwa [List.map_id] at hnodup

theorem filter_insertBy (key : α → String) (name : String) (x : α) (xs : List α) :
    (insertBy key x xs).filter (key · = name) = (x :: xs).filter (key · = name) := by
  induction xs with
  | nil => rfl
  | cons y ys ih =>
    rw [insertBy]
    split
    · rename_i hyx
      rw [List.filter_cons, ih]
      by_cases hx : key x = name
      · have hy : key y ≠ name := fun hy ↦ String.lt_irrefl _ (hx ▸ hy ▸ hyx)
        simp [hx, hy]
      · simp [List.filter_cons, hx]
    · rfl

/-- Elements of equal keys stay in their order. -/
theorem filter_sortBy (key : α → String) (name : String) (xs : List α) :
    (sortBy key xs).filter (key · = name) = xs.filter (key · = name) := by
  induction xs with
  | nil => rfl
  | cons x xs ih =>
    have hstep : sortBy key (x :: xs) = insertBy key x (sortBy key xs) := rfl
    rw [hstep, filter_insertBy, List.filter_cons, List.filter_cons, ih]

theorem mem_iff_of_filter_eq [DecidableEq κ] {key : α → κ} {xs ys : List α}
    (h : ∀ name, xs.filter (key · = name) = ys.filter (key · = name)) (x : α) :
    x ∈ xs ↔ x ∈ ys := by
  have hgroup : x ∈ xs.filter (key · = key x) ↔ x ∈ ys.filter (key · = key x) := by rw [h]
  simpa using hgroup

/-- A list in ascending order is determined by its groups. -/
theorem eq_of_pairwise_of_filter_eq {key : α → String} {xs ys : List α}
    (hxs : xs.Pairwise fun x y ↦ key x ≤ key y) (hys : ys.Pairwise fun x y ↦ key x ≤ key y)
    (h : ∀ name, xs.filter (key · = name) = ys.filter (key · = name)) : xs = ys := by
  have hmem := mem_iff_of_filter_eq h
  induction xs generalizing ys with
  | nil => exact (List.eq_nil_iff_forall_not_mem.2 fun z hz ↦ nomatch (hmem z).2 hz).symm
  | cons x xs ih =>
    cases ys with
    | nil => exact nomatch (hmem x).1 List.mem_cons_self
    | cons y ys =>
      obtain ⟨hx, hxsTail⟩ := List.pairwise_cons.1 hxs
      obtain ⟨hy, hysTail⟩ := List.pairwise_cons.1 hys
      -- both heads have the least key, so they are the first elements of one group
      have hxy : key x ≤ key y := by
        rcases List.mem_cons.1 ((hmem y).2 List.mem_cons_self) with rfl | hyxs
        · exact String.le_refl _
        · exact hx y hyxs
      have hyx : key y ≤ key x := by
        rcases List.mem_cons.1 ((hmem x).1 List.mem_cons_self) with rfl | hxys
        · exact String.le_refl _
        · exact hy x hxys
      have hheads := h (key x)
      simp only [List.filter_cons, String.le_antisymm hyx hxy, decide_true, if_true] at hheads
      obtain ⟨rfl, -⟩ := List.cons.inj hheads
      have htails : ∀ name, xs.filter (key · = name) = ys.filter (key · = name) := by
        intro name
        have hname := h name
        rw [List.filter_cons, List.filter_cons] at hname
        split at hname
        · exact (List.cons.inj hname).2
        · exact hname
      rw [ih hxsTail hysTail htails (mem_iff_of_filter_eq htails)]

theorem sortBy_eq_self {key : α → String} {xs : List α}
    (h : xs.Pairwise fun x y ↦ key x ≤ key y) : sortBy key xs = xs :=
  eq_of_pairwise_of_filter_eq (pairwise_sortBy key xs) h fun name ↦ filter_sortBy key name xs

theorem sortBy_congr {key : α → String} {xs ys : List α}
    (h : ∀ name, xs.filter (key · = name) = ys.filter (key · = name)) :
    sortBy key xs = sortBy key ys := by
  apply eq_of_pairwise_of_filter_eq (pairwise_sortBy key xs) (pairwise_sortBy key ys)
  intro name
  rw [filter_sortBy, filter_sortBy, h]

theorem ascending_congr {xs ys : List String} (h : ∀ name, name ∈ xs ↔ name ∈ ys) :
    ascending xs = ascending ys := by
  have hperm : (ascending xs).Perm (ascending ys) := by
    rw [List.perm_ext_iff_of_nodup (nodup_ascending xs) (nodup_ascending ys)]
    intro name
    rw [mem_ascending, mem_ascending, h]
  apply hperm.eq_of_pairwise ?_ (pairwise_ascending xs) (pairwise_ascending ys)
  exact fun _ _ _ _ hlt hgt ↦ absurd hgt (String.lt_asymm hlt)

/-! ## The first element of a key -/

/-- The element is in the list, and none before it has its key. -/
def IsFirst (key : α → String) (xs : List α) (x : α) : Prop :=
  ∃ before after, xs = before ++ x :: after ∧ ∀ earlier ∈ before, key earlier ≠ key x

theorem isFirst_cons_iff {key : α → String} {x y : α} {ys : List α} :
    IsFirst key (y :: ys) x ↔ x = y ∨ key y ≠ key x ∧ IsFirst key ys x := by
  constructor
  · intro h
    obtain ⟨before, after, heq, hearlier⟩ := h
    cases before with
    | nil => exact .inl (List.cons.inj heq).1.symm
    | cons z before =>
      obtain ⟨rfl, rfl⟩ := List.cons.inj heq
      refine .inr ⟨hearlier y List.mem_cons_self, before, after, rfl, ?_⟩
      exact fun earlier hmem ↦ hearlier earlier (List.mem_cons_of_mem _ hmem)
  · intro h
    rcases h with rfl | ⟨hkey, before, after, rfl, hearlier⟩
    · exact ⟨[], ys, rfl, fun _ hmem ↦ absurd hmem List.not_mem_nil⟩
    · refine ⟨y :: before, after, rfl, ?_⟩
      intro earlier hmem
      rcases List.mem_cons.1 hmem with rfl | hmem
      · exact hkey
      · exact hearlier earlier hmem

theorem mem_firstsFrom_iff {key : α → String} {seen : List String} {x : α} {xs : List α} :
    x ∈ firstsFrom key seen xs ↔ IsFirst key xs x ∧ key x ∉ seen := by
  induction xs generalizing seen with
  | nil => simp [firstsFrom, IsFirst]
  | cons y ys ih =>
    rw [firstsFrom, isFirst_cons_iff]
    split
    · rename_i hseen
      rw [ih]
      constructor
      · intro h
        obtain ⟨hfirst, hnew⟩ := h
        exact ⟨.inr ⟨fun heq ↦ hnew (heq ▸ hseen), hfirst⟩, hnew⟩
      · intro h
        obtain ⟨rfl | ⟨-, hfirst⟩, hnew⟩ := h
        · exact absurd hseen hnew
        · exact ⟨hfirst, hnew⟩
    · rename_i hseen
      rw [List.mem_cons, ih, List.mem_cons, not_or]
      constructor
      · intro h
        rcases h with rfl | ⟨hfirst, hkey, hnew⟩
        · exact ⟨.inl rfl, hseen⟩
        · exact ⟨.inr ⟨Ne.symm hkey, hfirst⟩, hnew⟩
      · intro h
        obtain ⟨rfl | ⟨hkey, hfirst⟩, hnew⟩ := h
        · exact .inl rfl
        · exact .inr ⟨hfirst, Ne.symm hkey, hnew⟩

theorem mem_firstsBy_iff {key : α → String} {x : α} {xs : List α} :
    x ∈ firstsBy key xs ↔ IsFirst key xs x := by
  rw [firstsBy, mem_firstsFrom_iff]
  simp

/-- The only first of a name is the first element of its group. -/
theorem filter_firstsFrom (key : α → String) (seen : List String) (xs : List α) (name : String) :
    (firstsFrom key seen xs).filter (key · = name) =
      if name ∈ seen then [] else (xs.filter (key · = name)).head?.toList := by
  induction xs generalizing seen with
  | nil => simp [firstsFrom]
  | cons x xs ih =>
    rw [firstsFrom]
    by_cases hname : key x = name
    · subst hname
      by_cases hseen : key x ∈ seen
      · simp [ih, hseen]
      · simp [ih, hseen]
    · by_cases hseen : key x ∈ seen
      · simp [ih, hseen, hname]
      · simp [ih, hseen, hname, Ne.symm hname]

theorem filter_firstsBy (key : α → String) (xs : List α) (name : String) :
    (firstsBy key xs).filter (key · = name) = (xs.filter (key · = name)).head?.toList := by
  rw [firstsBy, filter_firstsFrom, if_neg List.not_mem_nil]

/-! ## Groups -/

variable [DecidableEq κ]

/-- The first element of a group has the key of the group. -/
theorem key_eq_of_filter_eq_cons {key : α → κ} {xs rest : List α} {k : κ} {x : α}
    (h : xs.filter (key · = k) = x :: rest) : key x = k := by
  have hmem : x ∈ xs.filter (key · = k) := h ▸ List.mem_cons_self
  exact of_decide_eq_true (List.mem_filter.1 hmem).2

theorem perm_flatMap_filter {key : α → κ} {keys : List κ} {xs : List α}
    (hnodup : keys.Nodup) (hkeys : ∀ x ∈ xs, key x ∈ keys) :
    (keys.flatMap fun name ↦ xs.filter (key · = name)).Perm xs := by
  induction keys generalizing xs with
  | nil =>
    rw [List.eq_nil_iff_forall_not_mem.2 fun x hx ↦ List.not_mem_nil (hkeys x hx)]
    exact List.Perm.refl _
  | cons name keys ih =>
    obtain ⟨hname, hnodup⟩ := List.nodup_cons.1 hnodup
    let others := xs.filter fun x ↦ !decide (key x = name)
    have hothers : ∀ x ∈ others, key x ∈ keys := by
      intro x hx
      obtain ⟨hmem, hne⟩ := List.mem_filter.1 hx
      exact (List.mem_cons.1 (hkeys x hmem)).resolve_left (by simpa using hne)
    have hgroups : (keys.flatMap fun other ↦ xs.filter (key · = other)) =
        keys.flatMap fun other ↦ others.filter (key · = other) := by
      apply List.flatMap_congr
      intro other hother
      rw [List.filter_filter]
      apply List.filter_congr
      intro x _
      by_cases hx : key x = other
      · have hne : other ≠ name := fun heq ↦ hname (heq ▸ hother)
        simp [hx, hne]
      · simp [hx]
    rw [List.flatMap_cons, hgroups]
    exact ((ih hnodup hothers).append_left _).trans (List.filter_append_perm _ xs)

/-- Where no two elements share a key, an element is all of its group. -/
theorem filter_key_eq_singleton {key : α → κ} {x : α} {xs : List α}
    (hnodup : (xs.map key).Nodup) (hx : x ∈ xs) : xs.filter (key · = key x) = [x] := by
  induction xs with
  | nil => contradiction
  | cons y ys ih =>
    rw [List.map_cons, List.nodup_cons] at hnodup
    obtain ⟨hy, hnodup⟩ := hnodup
    rcases List.mem_cons.1 hx with rfl | hx
    · have hrest : ys.filter (key · = key x) = [] := by
        rw [List.filter_eq_nil_iff]
        intro z hz heq
        exact hy (List.mem_map.2 ⟨z, hz, of_decide_eq_true heq⟩)
      simp [hrest]
    · have hne : key y ≠ key x := fun heq ↦ hy (heq ▸ List.mem_map_of_mem hx)
      rw [List.filter_cons_of_neg (by simp [hne])]
      exact ih hnodup hx

/-- Where no two elements share a key, the groups do not depend on the order of the list. -/
theorem filter_key_eq_of_perm {key : α → κ} {xs ys : List α} (hperm : xs.Perm ys)
    (hnodup : (xs.map key).Nodup) (name : κ) :
    xs.filter (key · = name) = ys.filter (key · = name) := by
  by_cases hname : ∃ x ∈ xs, key x = name
  · obtain ⟨x, hx, rfl⟩ := hname
    rw [filter_key_eq_singleton hnodup hx,
      filter_key_eq_singleton ((hperm.map key).nodup_iff.1 hnodup) (hperm.mem_iff.1 hx)]
  · have hnone : xs.filter (key · = name) = [] := by
      rw [List.filter_eq_nil_iff]
      exact fun x hx heq ↦ hname ⟨x, hx, of_decide_eq_true heq⟩
    have hperm := hperm.filter (key · = name)
    rw [hnone] at hperm ⊢
    exact hperm.nil_eq

/-- Looked up among elements of different keys, the group of a name is found once. -/
theorem flatMap_filter_key {key : α → κ} {xs : List α} (group : κ → List β)
    (hnodup : (xs.map key).Nodup) {name : κ} (hmiss : name ∉ xs.map key → group name = []) :
    ((xs.filter (key · = name)).flatMap fun x ↦ group (key x)) = group name := by
  by_cases hname : name ∈ xs.map key
  · obtain ⟨x, hx, rfl⟩ := List.mem_map.1 hname
    rw [filter_key_eq_singleton hnodup hx, List.flatMap_singleton]
  · have hnone : xs.filter (key · = name) = [] := by
      rw [List.filter_eq_nil_iff]
      intro x hx heq
      exact hname (List.mem_map.2 ⟨x, hx, of_decide_eq_true heq⟩)
    rw [hnone, hmiss hname, List.flatMap_nil]

end TypedClient.Ordered
