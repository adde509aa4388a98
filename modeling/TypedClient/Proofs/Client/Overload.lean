import Mathlib.Data.List.Forall2
import Mathlib.Data.List.NodupEquivFin
import TypedClient.Proofs.Client.NameGroups

/-!
# Names after telling overloads apart

A function keeps its name unless another function of its container has it too,
and nothing but names changes. The warnings are about the names that are shared
afterwards, by renamed functions or by others. Without a warning no name of a
container is shared, and telling overloads apart again has no effect.
-/

namespace TypedClient

namespace Callable

/-- All parameters of a function tell it from others, except for a callback in the last place. -/
inductive Tells : List FormalParameter → List FormalParameter → Prop
  | callback (params : List FormalParameter) (last : FormalParameter)
      (hlast : Text.eqIgnoringCase last.name callbackName = true) : Tells (params ++ [last]) params
  | all (params : List FormalParameter)
      (hlast : ∀ last ∈ params.getLast?, Text.eqIgnoringCase last.name callbackName ≠ true) :
      Tells params params

theorem tells_telling (params : List FormalParameter) : Tells params (telling params) := by
  unfold telling
  split
  · rename_i last hlast
    split
    · rename_i hcallback
      have hparams : params.dropLast ++ [last] = params := List.dropLast_append_getLast? last hlast
      have htells := Tells.callback params.dropLast last hcallback
      rwa [hparams] at htells
    · rename_i hcallback
      refine .all params ?_
      intro other hother
      obtain rfl := Option.some.inj (hlast.symm.trans hother)
      exact hcallback
  · rename_i hnone
    obtain rfl := List.getLast?_eq_none_iff.1 hnone
    exact .all [] (by simp)

theorem Tells.eq_telling {params kept : List FormalParameter} (h : Tells params kept) :
    kept = telling params := by
  unfold telling
  cases h with
  | callback _ last hlast => simp [hlast]
  | all _ hlast =>
    split
    · rename_i last heq
      rw [if_neg (hlast last heq)]
    · rename_i hnone
      exact List.getLast?_eq_none_iff.1 hnone

/-- The name of a function that shares its own with others. -/
inductive LongName (byType : Bool) (function : Callable) : String → Prop
  | bare (htells : Tells function.params []) : LongName byType function function.name
  | told {params : List FormalParameter} (htells : Tells function.params params)
      (hne : params ≠ []) :
      LongName byType function
        (function.name ++ "By" ++ "And".intercalate (params.map fun param ↦
          if byType then Name.titleCase param.name ++ "Of" ++ param.token
          else Name.titleCase param.name))

theorem longName_iff {byType : Bool} {function : Callable} {name : String} :
    LongName byType function name ↔ name = function.overloadName byType := by
  unfold overloadName
  constructor
  · intro h
    cases h with
    | bare htells => rw [← htells.eq_telling]
    | told htells hne =>
      obtain ⟨param, params, rfl⟩ := List.exists_cons_of_ne_nil hne
      rw [← htells.eq_telling]
      rfl
  · rintro rfl
    have htells := tells_telling function.params
    split
    · rename_i hnil
      exact .bare (hnil ▸ htells)
    · rename_i hne
      exact .told htells (fun hnil ↦ hne hnil)

end Callable

namespace Container

/-! ## Shared names -/

/-- The function at the position has its name in common with another one. -/
def SharesAt (functions : List Callable) (position : Nat) : Prop :=
  ∃ function other twin, functions[position]? = some function ∧ other ≠ position ∧
    functions[other]? = some twin ∧ twin.name = function.name

/-- A name occurs more than once exactly if it stands at two positions. -/
theorem duplicate_iff_positions {names : List String} {name : String} :
    names.Duplicate name ↔ ∃ left right : Nat, left < right ∧ names[left]? = some name ∧
      names[right]? = some name := by
  rw [List.duplicate_iff_exists_distinct_get]
  constructor
  · intro hexists
    obtain ⟨left, right, hlt, hleft, hright⟩ := hexists
    exact ⟨left, right, hlt, List.getElem?_eq_some_iff.2 ⟨left.isLt, hleft.symm⟩,
      List.getElem?_eq_some_iff.2 ⟨right.isLt, hright.symm⟩⟩
  · intro hexists
    obtain ⟨left, right, hlt, hleft, hright⟩ := hexists
    obtain ⟨hleftLt, hleft⟩ := List.getElem?_eq_some_iff.1 hleft
    obtain ⟨hrightLt, hright⟩ := List.getElem?_eq_some_iff.1 hright
    exact ⟨⟨left, hleftLt⟩, ⟨right, hrightLt⟩, hlt, hleft.symm, hright.symm⟩

theorem sharesAt_iff_duplicate {functions : List Callable} {position : Nat} {function : Callable}
    (h : functions[position]? = some function) :
    SharesAt functions position ↔ (functions.map Callable.name).Duplicate function.name := by
  rw [duplicate_iff_positions]
  simp only [List.getElem?_map, Option.map_eq_some_iff]
  constructor
  · intro hshares
    obtain ⟨found, other, twin, hfound, hne, htwin, hname⟩ := hshares
    obtain rfl := Option.some.inj (hfound.symm.trans h)
    rcases Nat.lt_or_gt_of_ne hne with hlt | hgt
    · exact ⟨other, position, hlt, ⟨twin, htwin, hname⟩, found, h, rfl⟩
    · exact ⟨position, other, hgt, ⟨found, h, rfl⟩, twin, htwin, hname⟩
  · intro hexists
    obtain ⟨left, right, hlt, ⟨first, hfirst, hleft⟩, second, hsecond, hright⟩ := hexists
    by_cases hposition : left = position
    · exact ⟨function, right, second, h, by omega, hsecond, hright⟩
    · exact ⟨function, left, first, h, hposition, hfirst, hleft⟩

/-- The names that several of the functions have, each once, in order of first appearance. -/
structure Reports (functions : List Callable) (names : List String) : Prop where
  mem_iff : ∀ name, name ∈ names ↔ ∃ position function, functions[position]? = some function ∧
    function.name = name ∧ SharesAt functions position
  ordered : names.Pairwise fun left right ↦
    (functions.map Callable.name).idxOf left < (functions.map Callable.name).idxOf right

theorem mem_sharedNames_iff {container : Container} {name : String} :
    name ∈ container.sharedNames ↔ (container.functions.map Callable.name).Duplicate name := by
  rw [sharedNames_eq_filter, List.mem_filter, decide_eq_true_eq, List.duplicate_iff_two_le_count]
  apply and_iff_right_of_imp
  intro hmany
  exact Ordered.mem_firstsBy_id.2 (List.count_pos_iff.1 (Nat.lt_of_succ_lt hmany))

theorem reports_sharedNames (container : Container) :
    Reports container.functions container.sharedNames where
  mem_iff := by
    intro name
    rw [mem_sharedNames_iff]
    constructor
    · intro hduplicate
      obtain ⟨function, hmem, rfl⟩ := List.mem_map.1 hduplicate.mem
      obtain ⟨position, hposition⟩ := List.mem_iff_getElem?.1 hmem
      exact ⟨position, function, hposition, rfl, (sharesAt_iff_duplicate hposition).2 hduplicate⟩
    · intro hexists
      obtain ⟨position, function, hposition, rfl, hshares⟩ := hexists
      exact (sharesAt_iff_duplicate hposition).1 hshares
  ordered := by
    rw [sharedNames_eq_filter]
    exact (Ordered.pairwise_idxOf_firstsBy _).sublist List.filter_sublist

theorem sharedNames_eq_nil_iff {container : Container} :
    container.sharedNames = [] ↔ (container.functions.map Callable.name).Nodup := by
  rw [List.eq_nil_iff_forall_not_mem, List.nodup_iff_forall_not_duplicate]
  simp only [mem_sharedNames_iff]

/-! ## One container -/

/-- What becomes of a container, and the warnings about it: functions change at most their names,
and they do where they share them. -/
structure Told (byType : Bool) (container : Container) (result : Container × List Diagnostic) :
    Prop where
  name_eq : result.1.name = container.name
  sourceName_eq : result.1.sourceName = container.sourceName
  length_eq : result.1.functions.length = container.functions.length
  shared : ∀ position function, container.functions[position]? = some function →
    SharesAt container.functions position →
      ∃ name, function.LongName byType name ∧
        result.1.functions[position]? = some { function with name }
  alone : ∀ position function, container.functions[position]? = some function →
    ¬ SharesAt container.functions position →
      result.1.functions[position]? = some function
  reported : ∃ names, result.2 = names.map (.unresolvedOverload container.name) ∧
    Reports result.1.functions names

/-- What becomes of the function at a position. -/
theorem getElem?_disambiguate (byType : Bool) (container : Container) (position : Nat) :
    (container.disambiguate byType).functions[position]? =
      container.functions[position]?.map (rename byType container.functions) := by
  rw [disambiguate, renameShared_eq_map, List.getElem?_map]

theorem told_disambiguate (byType : Bool) (container : Container) :
    container.Told byType
      (container.disambiguate byType, (container.disambiguate byType).overloads) where
  name_eq := rfl
  sourceName_eq := rfl
  length_eq := by rw [disambiguate, renameShared_eq_map, List.length_map]
  shared := by
    intro position function hposition hshares
    have hmany : 1 < (container.functions.map Callable.name).count function.name :=
      List.duplicate_iff_two_le_count.1 ((sharesAt_iff_duplicate hposition).1 hshares)
    refine ⟨_, Callable.longName_iff.2 rfl, ?_⟩
    rw [getElem?_disambiguate, hposition, Option.map_some, rename, if_pos hmany]
  alone := by
    intro position function hposition halone
    have honce : ¬ 1 < (container.functions.map Callable.name).count function.name := fun hmany ↦
      halone ((sharesAt_iff_duplicate hposition).2 (List.duplicate_iff_two_le_count.2 hmany))
    rw [getElem?_disambiguate, hposition, Option.map_some, rename, if_neg honce]
  reported := ⟨_, rfl, reports_sharedNames _⟩

/-- Where no name is shared, nothing is renamed. -/
theorem disambiguate_of_nodup {container : Container}
    (h : (container.functions.map Callable.name).Nodup) (byType : Bool) :
    container.disambiguate byType = container := by
  have hkeep : ∀ function ∈ container.functions,
      rename byType container.functions function = function := by
    intro function _
    have honce := List.nodup_iff_count_le_one.1 h function.name
    rw [rename, if_neg (Nat.not_lt.2 honce)]
  rw [disambiguate, renameShared_eq_map, List.map_congr_left hkeep, List.map_id']

end Container

namespace Client

theorem overloads_eq_nil_iff {client : Client} :
    (client.flatMap fun group ↦ group.containers.flatMap Container.overloads) = [] ↔
      ∀ group ∈ client, ∀ container ∈ group.containers,
        (container.functions.map Callable.name).Nodup := by
  simp only [List.flatMap_eq_nil_iff, Container.overloads, List.map_eq_nil_iff,
    Container.sharedNames_eq_nil_iff]

theorem mapContainers_eq_self {f : Container → Container} {client : Client}
    (h : ∀ group ∈ client, ∀ container ∈ group.containers, f container = container) :
    client.mapContainers f = client := by
  have hgroup : ∀ group ∈ client, { group with containers := group.containers.map f } = group := by
    intro group hgroup
    rw [List.map_congr_left (h group hgroup), List.map_id']
  rw [mapContainers, List.map_congr_left hgroup, List.map_id']

/-- Where no container shares a name, telling overloads apart has no effect. -/
theorem disambiguate_of_nodup {client : Client}
    (h : ∀ group ∈ client, ∀ container ∈ group.containers,
      (container.functions.map Callable.name).Nodup) (byType : Bool) :
    client.disambiguate byType = (client, []) := by
  have hself : client.mapContainers (Container.disambiguate byType) = client :=
    mapContainers_eq_self fun group hgroup container hcontainer ↦
      Container.disambiguate_of_nodup (h group hgroup container hcontainer) byType
  rw [disambiguate, hself, overloads_eq_nil_iff.2 h]

/-- Container by container, functions that share a name get a longer one, and the names that are
still shared are reported. If there are none, doing it again changes and reports nothing. -/
theorem disambiguate_outcome (byType : Bool) (client : Client) :
    (∃ results : List (List (Container × List Diagnostic)),
      List.Forall₂ (fun group told ↦ List.Forall₂ (Container.Told byType) group.containers told)
        client results ∧
      (client.disambiguate byType).1 = List.zipWith
        (fun group told ↦ { group with containers := told.map Prod.fst }) client results ∧
      (client.disambiguate byType).2 = results.flatMap fun told ↦ told.flatMap Prod.snd) ∧
    ((client.disambiguate byType).2 = [] →
      (∀ group ∈ (client.disambiguate byType).1, ∀ container ∈ group.containers,
        (container.functions.map Callable.name).Nodup) ∧
      ∀ again, (client.disambiguate byType).1.disambiguate again =
        ((client.disambiguate byType).1, [])) := by
  constructor
  · let tell (container : Container) : Container × List Diagnostic :=
      (container.disambiguate byType, (container.disambiguate byType).overloads)
    refine ⟨client.map fun group ↦ group.containers.map tell, ?_, ?_, ?_⟩
    · rw [List.forall₂_map_right_iff]
      apply List.forall₂_same.2
      intro group _
      rw [List.forall₂_map_right_iff]
      apply List.forall₂_same.2
      intro container _
      exact Container.told_disambiguate byType container
    · simp [disambiguate, mapContainers, List.zipWith_map_right, tell, Function.comp_def]
    · simp [disambiguate, mapContainers, List.flatMap_map, tell]
  · intro hnone
    have hnodup := overloads_eq_nil_iff.1 hnone
    exact ⟨hnodup, disambiguate_of_nodup hnodup⟩

end Client

end TypedClient
