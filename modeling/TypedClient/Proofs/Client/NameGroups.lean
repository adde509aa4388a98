import Mathlib.Data.List.Induction
import Mathlib.Data.List.Nodup
import TypedClient.Client.Overload
import TypedClient.Proofs.Grouping

/-!
# Groups of indices by name

Adding index after index gives each name one group, which holds the positions of
the name in their order, and the groups stand in the order in which their names
first appear. The members of all groups are the positions of the list, each of
them once. So what is done in place to the members of some groups is done to
each of the functions once, and depends on its name only.
-/

namespace TypedClient

namespace NameGroups

/-- The indices at which the name stands. -/
def positions (names : List String) (name : String) : List Nat :=
  (names.zipIdx.filter (·.1 = name)).map Prod.snd

theorem mem_positions_iff {names : List String} {name : String} {index : Nat} :
    index ∈ positions names name ↔ names[index]? = some name := by
  simp [positions, List.mem_zipIdx_iff_getElem?]

theorem length_positions (names : List String) (name : String) :
    (positions names name).length = names.count name := by
  calc (positions names name).length
      = names.zipIdx.countP (·.1 = name) := by
        rw [positions, List.length_map, List.countP_eq_length_filter]
    _ = (names.zipIdx.map Prod.fst).count name := by
        rw [List.count, List.countP_map]
        rfl
    _ = names.count name := by rw [List.zipIdx_map_fst]

theorem positions_concat (names : List String) (last name : String) :
    positions (names ++ [last]) name =
      positions names name ++ if last = name then [names.length] else [] := by
  rw [positions, List.zipIdx_append, List.filter_append, List.map_append]
  congr 1
  by_cases hlast : last = name
  · simp [hlast]
  · simp [hlast]

theorem ofNames_concat (names : List String) (name : String) :
    ofNames (names ++ [name]) = (ofNames names).add name names.length := by
  simp [ofNames, List.zipIdx_append]

/-- The slots lead to the groups of the names, which hold the positions of the name. -/
structure Indexes (grouping : NameGroups) (names : List String) : Prop where
  lookup_eq : ∀ name, grouping.slots.lookup name =
    if name ∈ names then some ((Ordered.firstsBy id names).idxOf name) else none
  groups_eq : grouping.groups = (Ordered.firstsBy id names).map (positions names)

/-- In a list that is made name by name, the entry of one name is changed where the name stands. -/
theorem modify_idxOf_map {α : Type} (f : String → α) (change : α → α) {names : List String}
    (hnodup : names.Nodup) (name : String) :
    (names.map f).modify (names.idxOf name) change =
      names.map fun other ↦ if other = name then change (f other) else f other := by
  induction names with
  | nil => rfl
  | cons first names ih =>
    obtain ⟨hfirst, hnodup⟩ := List.nodup_cons.1 hnodup
    by_cases heq : first = name
    · subst heq
      have hothers : ∀ other ∈ names, other ≠ first := fun other hother ↦
        ne_of_mem_of_not_mem hother hfirst
      simp +contextual [hothers]
    · rw [Ordered.idxOf_cons_of_ne heq, List.map_cons, List.modify_succ_cons, ih hnodup,
        List.map_cons, if_neg heq]

variable {grouping : NameGroups} {names : List String}

/-- The slot of a name that has a group leads to it. -/
theorem Indexes.add_of_mem (h : grouping.Indexes names) {name : String} (hname : name ∈ names) :
    (grouping.add name names.length).Indexes (names ++ [name]) := by
  have hnodup := Ordered.nodup_map_firstsBy id names
  rw [List.map_id] at hnodup
  have hfirsts : Ordered.firstsBy id (names ++ [name]) = Ordered.firstsBy id names := by
    simp [Ordered.firstsBy_concat, hname]
  have hmem : ∀ other, other ∈ names ++ [name] ↔ other ∈ names := by
    simp +contextual [or_iff_left_iff_imp, hname]
  rw [NameGroups.add, h.lookup_eq, if_pos hname]
  constructor
  · intro other
    simp only [h.lookup_eq, hfirsts, hmem]
  · dsimp only
    rw [h.groups_eq, hfirsts, modify_idxOf_map _ _ hnodup]
    apply List.map_congr_left
    intro other _
    rw [positions_concat]
    by_cases hother : name = other
    · rw [if_pos hother.symm, if_pos hother]
    · rw [if_neg (Ne.symm hother), if_neg hother, List.append_nil]

/-- A name without a group opens the next one. -/
theorem Indexes.add_of_not_mem (h : grouping.Indexes names) {name : String} (hname : name ∉ names) :
    (grouping.add name names.length).Indexes (names ++ [name]) := by
  have hfirst : name ∉ Ordered.firstsBy id names := mt Ordered.mem_firstsBy_id.1 hname
  have hfirsts : Ordered.firstsBy id (names ++ [name]) = Ordered.firstsBy id names ++ [name] := by
    simp [Ordered.firstsBy_concat, hname]
  rw [NameGroups.add, h.lookup_eq, if_neg hname]
  constructor
  · intro other
    by_cases hother : other = name
    · subst hother
      simp [hfirsts, h.groups_eq, List.idxOf_append_of_notMem hfirst]
    · have hne : (other == name) = false := beq_eq_false_iff_ne.2 hother
      rw [List.lookup_cons, hne, h.lookup_eq]
      by_cases hmem : other ∈ names
      · rw [if_pos hmem, if_pos (List.mem_append_left _ hmem), hfirsts,
          List.idxOf_append_of_mem (Ordered.mem_firstsBy_id.2 hmem)]
      · have hnot : other ∉ names ++ [name] := by simp [hmem, hother]
        rw [if_neg hmem, if_neg hnot]
  · have hnew : positions names name = [] := by
      apply List.eq_nil_iff_forall_not_mem.2
      intro index hindex
      exact hname (List.mem_of_getElem? (mem_positions_iff.1 hindex))
    have hothers : (Ordered.firstsBy id names).map (positions (names ++ [name])) =
        (Ordered.firstsBy id names).map (positions names) := by
      apply List.map_congr_left
      intro other hother
      rw [positions_concat, if_neg (ne_of_mem_of_not_mem hother hfirst).symm, List.append_nil]
    calc grouping.groups ++ [[names.length]]
        = (Ordered.firstsBy id names).map (positions (names ++ [name])) ++
            [positions (names ++ [name]) name] := by
          rw [h.groups_eq, hothers, positions_concat, hnew, if_pos rfl, List.nil_append]
      _ = (Ordered.firstsBy id (names ++ [name])).map (positions (names ++ [name])) := by
          rw [hfirsts, List.map_append, List.map_singleton]

theorem indexes_ofNames (names : List String) : (ofNames names).Indexes names := by
  induction names using List.reverseRecOn with
  | nil => exact ⟨fun _ ↦ rfl, rfl⟩
  | append_singleton names name ih =>
    rw [ofNames_concat]
    by_cases hname : name ∈ names
    · exact ih.add_of_mem hname
    · exact ih.add_of_not_mem hname

/-- Name by name in order of first appearance, the groups hold the positions of the name. -/
theorem groups_ofNames (names : List String) :
    (ofNames names).groups = (Ordered.firstsBy id names).map (positions names) :=
  (indexes_ofNames names).groups_eq

/-- Every position is in one group, and there once. -/
theorem perm_flatten_groups (names : List String) :
    (ofNames names).groups.flatten.Perm (List.range names.length) := by
  have hnodup := Ordered.nodup_map_firstsBy id names
  rw [List.map_id] at hnodup
  have hkeys : ∀ entry ∈ names.zipIdx, entry.1 ∈ Ordered.firstsBy id names := fun entry hentry ↦
    Ordered.mem_firstsBy_id.2 (List.fst_mem_of_mem_zipIdx hentry)
  have hperm := (Ordered.perm_flatMap_filter hnodup hkeys).map Prod.snd
  rw [List.map_flatMap, List.zipIdx_map_snd, ← List.range_eq_range'] at hperm
  rw [groups_ofNames, ← List.flatMap_def]
  exact hperm

end NameGroups

namespace Container

/-! ## Renaming in place -/

/-- Changes in place at different indices are each seen at their index only. -/
theorem getElem?_foldl_modify {α : Type} (change : α → α) {indices : List Nat}
    (hnodup : indices.Nodup) (xs : List α) (position : Nat) :
    (indices.foldl (fun changed index ↦ changed.modify index change) xs)[position]? =
      if position ∈ indices then xs[position]?.map change else xs[position]? := by
  induction indices generalizing xs with
  | nil => rfl
  | cons index indices ih =>
    obtain ⟨hindex, hnodup⟩ := List.nodup_cons.1 hnodup
    rw [List.foldl_cons, ih hnodup, List.getElem?_modify]
    by_cases heq : index = position
    · subst heq
      simp [hindex]
    · simp [heq, Ne.symm heq]

/-- What becomes of a function: it keeps its name if no other function has it. -/
def rename (byType : Bool) (functions : List Callable) (function : Callable) : Callable :=
  if 1 < (functions.map Callable.name).count function.name then
    { function with name := function.overloadName byType }
  else function

theorem renameShared_eq_foldl (byType : Bool) (functions : List Callable) :
    renameShared byType functions =
      ((groupsByName functions).filter (1 < ·.length)).flatten.foldl (renameAt byType) functions := by
  have hgroups : ∀ (groups : List (List Nat)) (start : List Callable),
      groups.foldl (fun renamed indices ↦
          if indices.length < 2 then renamed else indices.foldl (renameAt byType) renamed) start =
        (groups.filter (1 < ·.length)).flatten.foldl (renameAt byType) start := by
    intro groups
    induction groups with
    | nil => exact fun _ ↦ rfl
    | cons indices groups ih =>
      intro start
      rw [List.foldl_cons, ih]
      by_cases hmany : 1 < indices.length
      · have hnot : ¬ indices.length < 2 := by omega
        simp [hmany, hnot]
      · have hfew : indices.length < 2 := by omega
        simp [hmany, hfew]
  exact hgroups (groupsByName functions) functions

/-- The groups of several functions are those of the names that occur more than once. -/
theorem filter_groupsByName (functions : List Callable) :
    (groupsByName functions).filter (1 < ·.length) =
      ((Ordered.firstsBy id (functions.map Callable.name)).filter
        fun name ↦ 1 < (functions.map Callable.name).count name).map
          (NameGroups.positions (functions.map Callable.name)) := by
  rw [groupsByName, NameGroups.groups_ofNames, List.filter_map]
  simp only [Function.comp_def, NameGroups.length_positions]

theorem mem_flatten_filter_groupsByName_iff {functions : List Callable} {position : Nat}
    {function : Callable} (h : functions[position]? = some function) :
    position ∈ ((groupsByName functions).filter (1 < ·.length)).flatten ↔
      1 < (functions.map Callable.name).count function.name := by
  have hname : (functions.map Callable.name)[position]? = some function.name := by
    rw [List.getElem?_map, h, Option.map_some]
  rw [filter_groupsByName, ← List.flatMap_def, List.mem_flatMap]
  constructor
  · intro hexists
    obtain ⟨name, hmem, hposition⟩ := hexists
    obtain rfl := Option.some.inj (hname.symm.trans (NameGroups.mem_positions_iff.1 hposition))
    exact of_decide_eq_true (List.mem_filter.1 hmem).2
  · intro hmany
    have hfirst := Ordered.mem_firstsBy_id.2 (List.mem_of_getElem? hname)
    exact ⟨function.name, List.mem_filter.2 ⟨hfirst, decide_eq_true hmany⟩,
      NameGroups.mem_positions_iff.2 hname⟩

/-- Every function is renamed by itself, as its name alone demands. -/
theorem renameShared_eq_map (byType : Bool) (functions : List Callable) :
    renameShared byType functions = functions.map (rename byType functions) := by
  have hnodup : ((groupsByName functions).filter (1 < ·.length)).flatten.Nodup := by
    have hall := (NameGroups.perm_flatten_groups (functions.map Callable.name)).nodup_iff.2
      List.nodup_range
    obtain ⟨hgroups, hdisjoint⟩ := List.nodup_flatten.1 hall
    apply List.nodup_flatten.2
    exact ⟨fun group hgroup ↦ hgroups group (List.mem_of_mem_filter hgroup),
      hdisjoint.sublist List.filter_sublist⟩
  apply List.ext_getElem?
  intro position
  rw [renameShared_eq_foldl]
  have hchange := getElem?_foldl_modify
    (fun function : Callable ↦ { function with name := function.overloadName byType }) hnodup
    functions position
  refine hchange.trans ?_
  rw [List.getElem?_map]
  cases hfunction : functions[position]? with
  | none => simp
  | some function =>
    simp only [mem_flatten_filter_groupsByName_iff hfunction, Option.map_some, rename]
    split <;> rfl

/-- The first member of a group tells the name of all. -/
theorem sharedNames_eq_filter (container : Container) :
    container.sharedNames =
      (Ordered.firstsBy id (container.functions.map Callable.name)).filter
        fun name ↦ 1 < (container.functions.map Callable.name).count name := by
  rw [sharedNames, filter_groupsByName, List.filterMap_map]
  refine (List.filterMap_congr ?_).trans List.filterMap_some
  intro name hname
  have hpositions : NameGroups.positions (container.functions.map Callable.name) name ≠ [] := by
    apply List.ne_nil_of_length_pos
    rw [NameGroups.length_positions]
    exact Nat.lt_of_succ_lt (of_decide_eq_true (List.mem_filter.1 hname).2)
  obtain ⟨index, rest, hindex⟩ := List.exists_cons_of_ne_nil hpositions
  have hname := NameGroups.mem_positions_iff.1 (hindex ▸ List.mem_cons_self)
  rw [List.getElem?_map] at hname
  obtain ⟨function, hfunction, rfl⟩ := Option.map_eq_some_iff.1 hname
  simp [hindex, hfunction]

end Container

end TypedClient
