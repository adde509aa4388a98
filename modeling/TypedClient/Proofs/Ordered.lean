import TypedClient.Ordered

/-!
# Laws of arranged lists

Sorting by a key only permutes. The ascending list of some names is strictly
ascending, so it has every name once. The firsts of a list are a part of it that
still shows every key, and shows it once.
-/

namespace TypedClient.Ordered

variable {α : Type}

theorem perm_insertBy (key : α → String) (x : α) (xs : List α) :
    (insertBy key x xs).Perm (x :: xs) := by
  induction xs with
  | nil => exact List.Perm.refl _
  | cons y ys ih =>
    rw [insertBy]
    split
    · exact (ih.cons y).trans (List.Perm.swap x y ys)
    · exact List.Perm.refl _

theorem perm_sortBy (key : α → String) (xs : List α) : (sortBy key xs).Perm xs := by
  induction xs with
  | nil => exact List.Perm.refl _
  | cons x xs ih => exact (perm_insertBy key x (sortBy key xs)).trans (ih.cons x)

@[simp]
theorem mem_sortBy {key : α → String} {x : α} {xs : List α} : x ∈ sortBy key xs ↔ x ∈ xs :=
  (perm_sortBy key xs).mem_iff

theorem pairwise_insertName {x : String} {names : List String}
    (h : names.Pairwise (· < ·)) : (insertName x names).Pairwise (· < ·) := by
  induction names with
  | nil => exact List.pairwise_singleton _ _
  | cons y ys ih =>
    obtain ⟨hbelow, hys⟩ := List.pairwise_cons.1 h
    rw [insertName]
    split
    · rename_i hxy
      rw [List.pairwise_cons]
      refine ⟨?_, h⟩
      intro z hz
      rcases List.mem_cons.1 hz with rfl | hz
      · exact hxy
      · exact String.lt_trans hxy (hbelow z hz)
    · split
      · exact h
      · rename_i hxy hne
        rw [List.pairwise_cons]
        refine ⟨?_, ih hys⟩
        intro z hz
        rcases mem_insertName.1 hz with rfl | hz
        · apply String.not_le.1
          intro hle
          exact hne (String.le_antisymm hle (String.not_lt.1 hxy))
        · exact hbelow z hz

theorem pairwise_ascending (names : List String) : (ascending names).Pairwise (· < ·) := by
  induction names with
  | nil => exact List.Pairwise.nil
  | cons x names ih => exact pairwise_insertName ih

/-! ## Firsts -/

/-- Only membership in the list of keys seen so far counts. -/
theorem firstsFrom_congr {key : α → String} {seen other : List String}
    (h : ∀ name, name ∈ seen ↔ name ∈ other) (xs : List α) :
    firstsFrom key seen xs = firstsFrom key other xs := by
  induction xs generalizing seen other with
  | nil => rfl
  | cons x xs ih =>
    have hcons : ∀ name, name ∈ key x :: seen ↔ name ∈ key x :: other := fun name ↦ by
      rw [List.mem_cons, List.mem_cons, h]
    rw [firstsFrom, firstsFrom, ih h, ih hcons]
    simp only [h]

theorem sublist_firstsFrom (key : α → String) (seen : List String) (xs : List α) :
    (firstsFrom key seen xs).Sublist xs := by
  induction xs generalizing seen with
  | nil => exact List.Sublist.refl _
  | cons x xs ih =>
    rw [firstsFrom]
    split
    · exact (ih _).cons x
    · exact (ih _).cons_cons x

theorem sublist_firstsBy (key : α → String) (xs : List α) : (firstsBy key xs).Sublist xs :=
  sublist_firstsFrom key [] xs

/-- Every key that has not been seen keeps its first element. -/
theorem exists_mem_firstsFrom {key : α → String} {seen : List String} {x : α} {xs : List α}
    (hx : x ∈ xs) (hseen : key x ∉ seen) : ∃ y ∈ firstsFrom key seen xs, key y = key x := by
  induction xs generalizing seen with
  | nil => contradiction
  | cons z xs ih =>
    rw [firstsFrom]
    rcases List.mem_cons.1 hx with rfl | hx
    · rw [if_neg hseen]
      exact ⟨x, List.mem_cons_self, rfl⟩
    · split
      · exact ih hx hseen
      · by_cases heq : key x = key z
        · exact ⟨z, List.mem_cons_self, heq.symm⟩
        · obtain ⟨y, hy, hkey⟩ := ih hx fun hmem ↦ (List.mem_cons.1 hmem).elim heq hseen
          exact ⟨y, List.mem_cons_of_mem _ hy, hkey⟩

theorem exists_mem_firstsBy (key : α → String) {x : α} {xs : List α} (hx : x ∈ xs) :
    ∃ y ∈ firstsBy key xs, key y = key x :=
  exists_mem_firstsFrom hx List.not_mem_nil

theorem mem_firstsBy_id {name : String} {names : List String} :
    name ∈ firstsBy id names ↔ name ∈ names := by
  constructor
  · exact fun hfirst ↦ (sublist_firstsBy id names).mem hfirst
  · intro hname
    obtain ⟨first, hfirst, heq⟩ := exists_mem_firstsBy id hname
    obtain rfl : first = name := heq
    exact hfirst

theorem not_mem_seen_of_mem_firstsFrom {key : α → String} {seen : List String} {x : α}
    {xs : List α} (h : x ∈ firstsFrom key seen xs) : key x ∉ seen := by
  induction xs generalizing seen with
  | nil => simp [firstsFrom] at h
  | cons y ys ih =>
    rw [firstsFrom] at h
    split at h
    · exact ih h
    · rename_i hy
      rcases List.mem_cons.1 h with rfl | h
      · exact hy
      · exact fun hx ↦ ih h (List.mem_cons_of_mem _ hx)

theorem nodup_map_firstsFrom (key : α → String) (seen : List String) (xs : List α) :
    ((firstsFrom key seen xs).map key).Nodup := by
  induction xs generalizing seen with
  | nil => exact List.nodup_nil
  | cons x xs ih =>
    rw [firstsFrom]
    split
    · exact ih _
    · rw [List.map_cons, List.nodup_cons]
      refine ⟨?_, ih _⟩
      intro hx
      obtain ⟨y, hy, hkey⟩ := List.mem_map.1 hx
      exact not_mem_seen_of_mem_firstsFrom hy (hkey ▸ List.mem_cons_self)

theorem nodup_map_firstsBy (key : α → String) (xs : List α) : ((firstsBy key xs).map key).Nodup :=
  nodup_map_firstsFrom key [] xs

theorem firstsFrom_concat (key : α → String) (seen : List String) (xs : List α) (x : α) :
    firstsFrom key seen (xs ++ [x]) =
      firstsFrom key seen xs ++ if key x ∈ seen ∨ key x ∈ xs.map key then [] else [x] := by
  induction xs generalizing seen with
  | nil => simp [firstsFrom]
  | cons y xs ih =>
    rw [List.cons_append, firstsFrom, firstsFrom]
    split
    · rename_i hy
      have hseen : key x ∈ seen ∨ key x ∈ (y :: xs).map key ↔
          key x ∈ seen ∨ key x ∈ xs.map key := by
        rw [List.map_cons, List.mem_cons, ← or_assoc]
        exact or_congr_left (or_iff_left_of_imp fun heq ↦ heq ▸ hy)
      simp only [ih, hseen]
    · have hseen : key x ∈ seen ∨ key x ∈ (y :: xs).map key ↔
          key x ∈ key y :: seen ∨ key x ∈ xs.map key := by
        rw [List.map_cons, List.mem_cons, List.mem_cons, or_assoc, or_left_comm]
      simp only [ih, hseen, List.cons_append]

/-- The last element is among the firsts if no earlier one has its key. -/
theorem firstsBy_concat (key : α → String) (xs : List α) (x : α) :
    firstsBy key (xs ++ [x]) =
      firstsBy key xs ++ if key x ∈ xs.map key then [] else [x] := by
  simp [firstsBy, firstsFrom_concat]

/-- A list in which no key occurs twice or has been seen consists of firsts. -/
theorem firstsFrom_eq_self {key : α → String} {seen : List String} {xs : List α}
    (hnodup : (xs.map key).Nodup) (hseen : ∀ x ∈ xs, key x ∉ seen) :
    firstsFrom key seen xs = xs := by
  induction xs generalizing seen with
  | nil => rfl
  | cons x xs ih =>
    rw [List.map_cons, List.nodup_cons] at hnodup
    rw [firstsFrom, if_neg (hseen x List.mem_cons_self), ih hnodup.2]
    intro y hy hmem
    rcases List.mem_cons.1 hmem with heq | hmem
    · exact hnodup.1 (heq ▸ List.mem_map_of_mem hy)
    · exact hseen y (List.mem_cons_of_mem _ hy) hmem

theorem firstsBy_eq_self {key : α → String} {xs : List α} (h : (xs.map key).Nodup) :
    firstsBy key xs = xs :=
  firstsFrom_eq_self h fun _ _ ↦ List.not_mem_nil

theorem idxOf_cons_of_ne {name other : String} (h : name ≠ other) (names : List String) :
    (name :: names).idxOf other = names.idxOf other + 1 := by
  rw [List.idxOf_cons, beq_eq_false_iff_ne.2 h, cond_false]

/-- Names that have not been seen keep the order in which they first appear. -/
theorem pairwise_idxOf_firstsFrom (seen names : List String) :
    (firstsFrom id seen names).Pairwise fun left right ↦ names.idxOf left < names.idxOf right := by
  induction names generalizing seen with
  | nil => exact List.Pairwise.nil
  | cons name names ih =>
    have hlater : ∀ known : List String, name ∈ known →
        (firstsFrom id known names).Pairwise fun left right ↦
          (name :: names).idxOf left < (name :: names).idxOf right := by
      intro known hname
      have hne : ∀ other ∈ firstsFrom id known names, other ≠ name := by
        rintro other hother rfl
        exact not_mem_seen_of_mem_firstsFrom hother hname
      apply (ih known).imp_of_mem
      intro left right hleft hright hlt
      rw [idxOf_cons_of_ne (hne left hleft).symm, idxOf_cons_of_ne (hne right hright).symm]
      exact Nat.succ_lt_succ hlt
    rw [firstsFrom]
    split
    · rename_i hseen
      exact hlater seen hseen
    · rw [List.pairwise_cons]
      refine ⟨?_, hlater _ List.mem_cons_self⟩
      intro other hother
      have hne : name ≠ other := by
        rintro rfl
        exact not_mem_seen_of_mem_firstsFrom hother List.mem_cons_self
      rw [List.idxOf_cons_self, idxOf_cons_of_ne hne]
      exact Nat.succ_pos _

theorem pairwise_idxOf_firstsBy (names : List String) :
    (firstsBy id names).Pairwise fun left right ↦ names.idxOf left < names.idxOf right :=
  pairwise_idxOf_firstsFrom [] names

end TypedClient.Ordered
