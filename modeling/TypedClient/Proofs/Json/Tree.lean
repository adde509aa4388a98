import TypedClient.Json.Tree
import TypedClient.Proofs.Except

/-!
# Trees of values

The tree of a value has no faults, and its value is that value as long as containers
may be nested deep enough. Conversely a tree that has a value is the tree of this
value, so that nothing more than the value can be learnt from it.
-/

namespace TypedClient.Json

/-! ## Depth -/

theorem depthOfItems_le_iff {items : List Json} {limit : Nat} :
    depthOfItems items ≤ limit ↔ ∀ item ∈ items, item.depth ≤ limit := by
  induction items with
  | nil => simp [depthOfItems]
  | cons item items ih => rw [depthOfItems, Nat.max_le, ih, List.forall_mem_cons]

theorem depthOfFields_le_iff {fields : List (String × Json)} {limit : Nat} :
    depthOfFields fields ≤ limit ↔ ∀ field ∈ fields, field.2.depth ≤ limit := by
  induction fields with
  | nil => simp [depthOfFields]
  | cons field fields ih => rw [depthOfFields, Nat.max_le, ih, List.forall_mem_cons]

/-! ## From a value to its tree -/

mutual

theorem break?_ofJson (value : Json) : (Tree.ofJson value).break? = none := by
  cases value with
  | array items => exact break?_ofList items
  | object fields => exact break?_ofPairs fields
  | _ => rfl

theorem break?_ofList (items : List Json) : (Items.ofList items).break? = none := by
  cases items with
  | nil => rfl
  | cons item items =>
    rw [Items.ofList, Items.break?, break?_ofJson item, break?_ofList items, Option.or_none]

theorem break?_ofPairs (fields : List (String × Json)) : (Fields.ofPairs fields).break? = none := by
  match fields with
  | [] => rfl
  | (name, value) :: fields =>
    rw [Fields.ofPairs, Fields.break?, break?_ofJson value, break?_ofPairs fields]
    rfl

end

mutual

theorem value_ofJson (value : Json) {limit : Nat} (h : value.depth ≤ limit) :
    (Tree.ofJson value).value limit = .ok value := by
  cases value with
  | array items =>
    cases limit with
    | zero => simp [depth] at h
    | succ limit =>
      rw [Tree.ofJson, Tree.value, if_neg (Nat.succ_ne_zero _), Nat.add_sub_cancel,
        values_ofList items (Nat.le_of_succ_le_succ h)]
      rfl
  | object fields =>
    cases limit with
    | zero => simp [depth] at h
    | succ limit =>
      rw [Tree.ofJson, Tree.value, if_neg (Nat.succ_ne_zero _), Nat.add_sub_cancel,
        values_ofPairs fields (Nat.le_of_succ_le_succ h)]
      rfl
  | _ => rfl

theorem values_ofList (items : List Json) {limit : Nat} (h : depthOfItems items ≤ limit) :
    (Items.ofList items).values limit = .ok items := by
  cases items with
  | nil => rfl
  | cons item items =>
    obtain ⟨hitem, hitems⟩ := Nat.max_le.1 h
    rw [Items.ofList, Items.values, value_ofJson item hitem, values_ofList items hitems]
    rfl

theorem values_ofPairs (fields : List (String × Json)) {limit : Nat}
    (h : depthOfFields fields ≤ limit) : (Fields.ofPairs fields).values limit = .ok fields := by
  match fields with
  | [] => rfl
  | (name, value) :: fields =>
    obtain ⟨hvalue, hfields⟩ := Nat.max_le.1 h
    rw [Fields.ofPairs, Fields.values, value_ofJson value hvalue, values_ofPairs fields hfields]
    rfl

end

/-! ## From a tree to its value -/

theorem eq_good_of_value {α β : Type} {reading : Reading α} {build : α → β} {result : β}
    (h : reading.value.map build = .ok result) : ∃ found, reading = .good found ∧
      build found = result := by
  cases reading with
  | good found => exact ⟨found, rfl, Except.ok.inj h⟩
  | bad => contradiction

mutual

theorem ofJson_of_value {tree : Tree} {limit : Nat} {value : Json}
    (h : tree.value limit = .ok value) : tree = Tree.ofJson value ∧ value.depth ≤ limit := by
  cases tree with
  | missing | broken => contradiction
  | null | bool =>
    obtain rfl := Except.ok.inj h
    exact ⟨rfl, Nat.zero_le _⟩
  | number | string =>
    obtain ⟨found, rfl, rfl⟩ := eq_good_of_value h
    exact ⟨rfl, Nat.zero_le _⟩
  | list items =>
    cases limit with
    | zero => contradiction
    | succ limit =>
      rw [Tree.value, if_neg (Nat.succ_ne_zero _), Nat.add_sub_cancel] at h
      cases hitems : items.values limit with
      | error => simp [hitems, Except.map] at h
      | ok found =>
        obtain rfl : array found = value := by simpa [hitems, Except.map] using h
        obtain ⟨rfl, hdepth⟩ := ofList_of_values hitems
        exact ⟨rfl, Nat.succ_le_succ hdepth⟩
  | object fields =>
    cases limit with
    | zero => contradiction
    | succ limit =>
      rw [Tree.value, if_neg (Nat.succ_ne_zero _), Nat.add_sub_cancel] at h
      cases hfields : fields.values limit with
      | error => simp [hfields, Except.map] at h
      | ok found =>
        obtain rfl : object found = value := by simpa [hfields, Except.map] using h
        obtain ⟨rfl, hdepth⟩ := ofPairs_of_values hfields
        exact ⟨rfl, Nat.succ_le_succ hdepth⟩

theorem ofList_of_values {items : Items} {limit : Nat} {values : List Json}
    (h : items.values limit = .ok values) :
    items = Items.ofList values ∧ depthOfItems values ≤ limit := by
  cases items with
  | close =>
    obtain rfl := Except.ok.inj h
    exact ⟨rfl, Nat.zero_le _⟩
  | cut => contradiction
  | item value rest =>
    rw [Items.values] at h
    obtain ⟨first, hfirst, hthen⟩ := Except.bind_eq_ok_iff.1 h
    obtain ⟨others, hothers, hvalues⟩ := Except.bind_eq_ok_iff.1 hthen
    obtain rfl := Except.ok.inj hvalues
    obtain ⟨rfl, hdepth⟩ := ofJson_of_value hfirst
    obtain ⟨rfl, hdepths⟩ := ofList_of_values hothers
    exact ⟨rfl, Nat.max_le.2 ⟨hdepth, hdepths⟩⟩

theorem ofPairs_of_values {fields : Fields} {limit : Nat} {values : List (String × Json)}
    (h : fields.values limit = .ok values) :
    fields = Fields.ofPairs values ∧ depthOfFields values ≤ limit := by
  cases fields with
  | close =>
    obtain rfl := Except.ok.inj h
    exact ⟨rfl, Nat.zero_le _⟩
  | cut => contradiction
  | noKey => contradiction
  | field key value rest =>
    rw [Fields.values] at h
    obtain ⟨name, hname, hthen⟩ := Except.bind_eq_ok_iff.1 h
    obtain ⟨first, hfirst, hlast⟩ := Except.bind_eq_ok_iff.1 hthen
    obtain ⟨others, hothers, hvalues⟩ := Except.bind_eq_ok_iff.1 hlast
    obtain rfl := Except.ok.inj hvalues
    obtain ⟨rfl, hdepth⟩ := ofJson_of_value hfirst
    obtain ⟨rfl, hdepths⟩ := ofPairs_of_values hothers
    cases key with
    | good found =>
      obtain rfl := Except.ok.inj hname
      exact ⟨rfl, Nat.max_le.2 ⟨hdepth, hdepths⟩⟩
    | bad => contradiction

end

/-- The fields of an object with some of them left out. -/
theorem ofTrees_map_ofJson (fields : List (String × Json)) :
    Fields.ofTrees (fields.map fun (name, value) ↦ (name, Tree.ofJson value)) =
      Fields.ofPairs fields := by
  induction fields with
  | nil => rfl
  | cons field fields ih => rw [List.map_cons, Fields.ofTrees, ih, Fields.ofPairs]

end TypedClient.Json
