import TypedClient.Callable.Binding

/-!
# What binding a route does

A placeholder takes a parameter that is still free and may stand in the path, and
gives it the path role. Nothing else that happens along a route touches the
parameters, and literal text neither adds nor removes a parameter segment. So the
placeholders that were filled and the parameters that got the path role belong to
each other one to one, and every other parameter keeps what its source gave it.
-/

namespace TypedClient

namespace UriSegment

def isParameter : UriSegment → Bool
  | literal _ => false
  | parameter _ _ => true

end UriSegment

namespace RoutePart

/-- The name of a placeholder and its catch-all mark. -/
def placeholder? : RoutePart → Option (String × Bool)
  | literal _ => none
  | placeholder name _ catchAll => some (name, catchAll)

end RoutePart

namespace Binding

/-- A placeholder that was filled, with the parameter it took and the position of that
parameter in the declaration. -/
structure Fill where
  placeholder : String
  catchAll : Bool
  parameter : Parameter
  position : Nat

namespace Fill

def segment (fill : Fill) : UriSegment :=
  .parameter fill.parameter.name fill.catchAll

def origin (fill : Fill) : String × Bool :=
  (fill.placeholder, fill.catchAll)

end Fill

theorem mayFill_iff {parameter : Parameter} : mayFill parameter = true ↔
    parameter.source = .path ∨ parameter.source = .unbound := by
  simp [mayFill]

theorem accepts_iff {name : String} {slot : Slot} : accepts name slot = true ↔
    slot.role = none ∧ mayFill slot.parameter = true ∧
      Text.eqIgnoringCase slot.parameter.name name = true := by
  rw [accepts, Bool.and_eq_true, Bool.and_eq_true, Option.isNone_iff_eq_none, and_assoc]

/-- A claim changes the role of a single slot, which accepted the placeholder. -/
theorem exists_set_of_claim? {name : String} {parameter : Parameter} {slots rest : List Slot}
    (h : claim? name slots = some (parameter, rest)) :
    ∃ position slot, slots[position]? = some slot ∧ accepts name slot = true ∧
      slot.parameter = parameter ∧ rest = slots.set position { slot with role := some .path } := by
  induction slots generalizing rest with
  | nil => simp [claim?] at h
  | cons slot slots ih =>
    rw [claim?] at h
    split at h
    · rename_i haccepts
      simp only [Option.some.injEq, Prod.mk.injEq] at h
      obtain ⟨rfl, rfl⟩ := h
      exact ⟨0, slot, rfl, haccepts, rfl, rfl⟩
    · obtain ⟨⟨found, left⟩, hclaim, heq⟩ := Option.map_eq_some_iff.1 h
      simp only [Prod.mk.injEq] at heq
      obtain ⟨rfl, rfl⟩ := heq
      obtain ⟨position, taken, htaken, haccepts, hparameter, rfl⟩ := ih hclaim
      exact ⟨position + 1, taken, htaken, haccepts, hparameter, rfl⟩

/-! ## Literal text -/

theorem filter_isParameter_replaceLast {segments : List UriSegment} {last : String}
    (h : segments.getLast? = some (.literal last)) (text : String) :
    (segments.dropLast ++ [UriSegment.literal text]).filter UriSegment.isParameter =
      segments.filter UriSegment.isParameter := by
  obtain ⟨front, rfl⟩ := List.getLast?_eq_some_iff.1 h
  simp [UriSegment.isParameter]

@[simp]
theorem filter_isParameter_appendLiteral (segments : List UriSegment) (text : String) :
    (appendLiteral segments text).filter UriSegment.isParameter =
      segments.filter UriSegment.isParameter := by
  unfold appendLiteral
  split
  · rename_i last hlast
    exact filter_isParameter_replaceLast hlast _
  · simp [UriSegment.isParameter]

@[simp]
theorem filter_isParameter_trimSlash (segments : List UriSegment) :
    (trimSlash segments).filter UriSegment.isParameter =
      segments.filter UriSegment.isParameter := by
  unfold trimSlash
  split
  · rename_i last hlast
    split
    · exact filter_isParameter_replaceLast hlast _
    · rfl
  · rfl

/-! ## Filled slots -/

/-- The slots that are left when some placeholders have been filled from others. -/
structure Filled (slots : List Slot) (fills : List Fill) (left : List Slot) : Prop where
  nodup_positions : (fills.map Fill.position).Nodup
  accepts_fill : ∀ fill ∈ fills, ∃ slot, slots[fill.position]? = some slot ∧
    slot.parameter = fill.parameter ∧ accepts fill.placeholder slot = true
  getElem?_eq : ∀ position : Nat, left[position]? =
    if position ∈ fills.map Fill.position then
      slots[position]?.map fun slot ↦ { slot with role := some .path }
    else slots[position]?

namespace Filled

theorem nil (slots : List Slot) : Filled slots [] slots where
  nodup_positions := List.nodup_nil
  accepts_fill := fun _ hfill ↦ absurd hfill List.not_mem_nil
  getElem?_eq := fun _ ↦ rfl

/-- A slot that a placeholder took accepts no other one, so each position is filled once. -/
theorem cons {slots left : List Slot} {fills : List Fill} {slot : Slot} {position : Nat}
    {name : String} (catchAll : Bool) (hslot : slots[position]? = some slot)
    (haccepts : accepts name slot = true)
    (h : Filled (slots.set position { slot with role := some .path }) fills left) :
    Filled slots (⟨name, catchAll, slot.parameter, position⟩ :: fills) left := by
  obtain ⟨hposition, -⟩ := List.getElem?_eq_some_iff.1 hslot
  have hne : ∀ fill ∈ fills, fill.position ≠ position := by
    intro fill hfill heq
    obtain ⟨taken, htaken, -, htakes⟩ := h.accepts_fill fill hfill
    rw [heq, List.getElem?_set_self hposition, Option.some.injEq] at htaken
    subst htaken
    obtain ⟨hrole, -⟩ := accepts_iff.1 htakes
    contradiction
  have hnew : position ∉ fills.map Fill.position := by
    intro hmem
    obtain ⟨fill, hfill, heq⟩ := List.mem_map.1 hmem
    exact hne fill hfill heq
  constructor
  · rw [List.map_cons, List.nodup_cons]
    exact ⟨hnew, h.nodup_positions⟩
  · intro fill hfill
    rcases List.mem_cons.1 hfill with rfl | hfill
    · exact ⟨slot, hslot, rfl, haccepts⟩
    · have hother := h.accepts_fill fill hfill
      rwa [List.getElem?_set_ne (hne fill hfill).symm] at hother
  · intro other
    rw [h.getElem?_eq, List.map_cons]
    by_cases heq : other = position
    · subst heq
      rw [if_neg hnew, if_pos List.mem_cons_self, List.getElem?_set_self hposition, hslot]
      rfl
    · rw [List.getElem?_set_ne (Ne.symm heq)]
      simp [heq]

theorem map_parameter {slots left : List Slot} {fills : List Fill} (h : Filled slots fills left) :
    left.map Slot.parameter = slots.map Slot.parameter := by
  apply List.ext_getElem?
  intro position
  rw [List.getElem?_map, List.getElem?_map, h.getElem?_eq]
  split
  · rw [Option.map_map]
    rfl
  · rfl

end Filled

/-- Along a route, segments for the filled placeholders are appended in their order. -/
theorem exists_filled_of_fillFrom {parts : List RoutePart} {segments path : List UriSegment}
    {slots left : List Slot} (h : fillFrom segments slots parts = .ok (path, left)) :
    ∃ fills : List Fill, Filled slots fills left ∧
      path.filter UriSegment.isParameter =
        segments.filter UriSegment.isParameter ++ fills.map Fill.segment ∧
      (fills.map Fill.origin).Sublist (parts.filterMap RoutePart.placeholder?) := by
  induction parts generalizing segments slots with
  | nil =>
    simp only [fillFrom, Except.ok.injEq, Prod.mk.injEq] at h
    obtain ⟨rfl, rfl⟩ := h
    exact ⟨[], .nil slots, by simp, List.nil_sublist _⟩
  | cons part parts ih =>
    cases part with
    | literal text =>
      obtain ⟨fills, hfilled, hpath, horigins⟩ := ih h
      exact ⟨fills, hfilled, by simpa using hpath, horigins⟩
    | placeholder name optional catchAll =>
      rw [fillFrom] at h
      split at h
      · rename_i parameter rest hclaim
        obtain ⟨position, slot, hslot, haccepts, rfl, rfl⟩ := exists_set_of_claim? hclaim
        obtain ⟨fills, hfilled, hpath, horigins⟩ := ih h
        refine ⟨_ :: fills, hfilled.cons catchAll hslot haccepts, ?_, horigins.cons_cons _⟩
        rw [hpath, List.filter_append, List.append_assoc]
        rfl
      · split at h
        · obtain ⟨fills, hfilled, hpath, horigins⟩ := ih h
          exact ⟨fills, hfilled, by simpa using hpath, horigins.cons _⟩
        · contradiction

/-! ## The parameters of an operation -/

/-- A bound route together with the placeholders that were filled and the slots that are left. -/
structure Binds (operation : Operation) (fills : List Fill) (slots : List Slot)
    (bound : Bound) : Prop where
  filled : Filled (operation.parameters.map slotOf) fills slots
  segments : bound.uri.segments.filter UriSegment.isParameter = fills.map Fill.segment
  origins : (fills.map Fill.origin).Sublist (operation.routeParts.filterMap RoutePart.placeholder?)
  query : bound.uri.query = slots.filterMap Slot.query?
  parameters : bound.parameters = slots.map fun slot ↦ (slot.parameter, slot.finalRole)

theorem exists_binds_of_bind {operation : Operation} {bound : Bound}
    (h : operation.bind = .ok bound) : ∃ fills slots, Binds operation fills slots bound := by
  unfold Operation.bind at h
  split at h
  · contradiction
  · rename_i segments slots hfill
    obtain rfl := Except.ok.inj h
    obtain ⟨fills, hfilled, hpath, horigins⟩ := exists_filled_of_fillFrom hfill
    exact ⟨fills, slots, hfilled, hpath, horigins, rfl, rfl⟩

namespace Binds

variable {operation : Operation} {fills : List Fill} {slots : List Slot} {bound : Bound}

theorem parameters_eq (h : Binds operation fills slots bound) :
    operation.parameters = slots.map Slot.parameter := by
  rw [h.filled.map_parameter, List.map_map]
  exact (List.map_id _).symm

theorem slot_cases (h : Binds operation fills slots bound) {slot : Slot} (hslot : slot ∈ slots) :
    slot = slotOf slot.parameter ∨ slot.role = some .path ∧ mayFill slot.parameter = true := by
  obtain ⟨position, hposition⟩ := List.mem_iff_getElem?.1 hslot
  rw [h.filled.getElem?_eq] at hposition
  split at hposition
  · rename_i hmem
    obtain ⟨fill, hfill, rfl⟩ := List.mem_map.1 hmem
    obtain ⟨free, hfree, -, haccepts⟩ := h.filled.accepts_fill fill hfill
    rw [hfree, Option.map_some, Option.some.injEq] at hposition
    subst hposition
    exact .inr ⟨rfl, (accepts_iff.1 haccepts).2.1⟩
  · rw [List.getElem?_map, Option.map_eq_some_iff] at hposition
    obtain ⟨parameter, -, rfl⟩ := hposition
    exact .inl rfl

/-- Only the path and the query are given out along the route. Any other role is the one the
source of the parameter fixes. -/
theorem finalRole_eq_iff (h : Binds operation fills slots bound) {slot : Slot}
    (hslot : slot ∈ slots) {role : Role} (hpath : role ≠ .path) (hquery : role ≠ .query) :
    slot.finalRole = role ↔ (slotOf slot.parameter).role = some role := by
  rcases h.slot_cases hslot with hfree | ⟨hrole, hmay⟩
  · rw [← hfree, Slot.finalRole]
    cases slot.role with
    | none => simp [Ne.symm hquery]
    | some found => simp
  · rw [Slot.finalRole, hrole, slotOf]
    rcases mayFill_iff.1 hmay with hsource | hsource <;> simp [hsource, Ne.symm hpath]

theorem finalRole_eq_body_iff (h : Binds operation fills slots bound) {slot : Slot}
    (hslot : slot ∈ slots) : slot.finalRole = .body ↔ slot.parameter.source = .body := by
  rw [h.finalRole_eq_iff hslot (by decide) (by decide), slotOf]
  cases slot.parameter.source <;> simp

theorem finalRole_eq_header_iff (h : Binds operation fills slots bound) {slot : Slot}
    (hslot : slot ∈ slots) : slot.finalRole = .header ↔ slot.parameter.source = .header := by
  rw [h.finalRole_eq_iff hslot (by decide) (by decide), slotOf]
  cases slot.parameter.source <;> simp

/-- What no other part of the request carries is written into the query. -/
theorem finalRole_eq_query_iff (h : Binds operation fills slots bound) {slot : Slot}
    (hslot : slot ∈ slots) : slot.finalRole = .query ↔ slot.role = none := by
  rcases h.slot_cases hslot with hfree | ⟨hpath, -⟩
  · rw [hfree, Slot.finalRole, slotOf]
    cases slot.parameter.source <;> simp
  · simp [Slot.finalRole, hpath]

/-- The path role belongs to the positions that were filled. -/
theorem mem_positions_iff (h : Binds operation fills slots bound) {position : Nat} :
    position ∈ fills.map Fill.position ↔
      ∃ slot, slots[position]? = some slot ∧ slot.finalRole = .path := by
  rw [h.filled.getElem?_eq]
  constructor
  · intro hmem
    obtain ⟨fill, hfill, rfl⟩ := List.mem_map.1 hmem
    obtain ⟨free, hfree, -, -⟩ := h.filled.accepts_fill fill hfill
    rw [if_pos hmem, hfree]
    exact ⟨_, rfl, rfl⟩
  · intro hexists
    obtain ⟨slot, hslot, hrole⟩ := hexists
    by_cases hmem : position ∈ fills.map Fill.position
    · exact hmem
    rw [if_neg hmem, List.getElem?_map, Option.map_eq_some_iff] at hslot
    obtain ⟨parameter, -, rfl⟩ := hslot
    rw [Slot.finalRole, slotOf] at hrole
    cases hsource : parameter.source <;> simp [hsource] at hrole

end Binds

end Binding

end TypedClient
