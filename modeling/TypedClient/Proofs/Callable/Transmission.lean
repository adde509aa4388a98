import Mathlib.Data.List.Basic
import TypedClient.Proofs.Callable.Compile

/-!
# How a function transmits its parameters

Every parameter of a compiled operation is sent once. It becomes one formal
parameter, in its place, and feeds one part of the request: the body or a header
if its source says so, the path if it fills a placeholder of the route, and the
query otherwise.
-/

namespace TypedClient

open Binding

/-- The placeholders that the parameters of path role fill. -/
structure FillsPath (operation : Operation) (function : Callable) (fills : List Fill) : Prop where
  parameter_eq : ∀ fill ∈ fills, operation.parameters[fill.position]? = some fill.parameter
  source_eq : ∀ fill ∈ fills, fill.parameter.source = .path ∨ fill.parameter.source = .unbound
  name_eq : ∀ fill ∈ fills, Text.eqIgnoringCase fill.parameter.name fill.placeholder = true
  /-- No parameter fills two placeholders. -/
  nodup_positions : (fills.map Fill.position).Nodup
  mem_positions_iff : ∀ position, position ∈ fills.map Fill.position ↔
    ∃ formal, function.params[position]? = some formal ∧ formal.role = .path
  segments_eq : function.uri.segments.filter UriSegment.isParameter = fills.map Fill.segment
  /-- The placeholders are different ones, in the order of the route. -/
  origins : (fills.map Fill.origin).Sublist (operation.routeParts.filterMap RoutePart.placeholder?)

/-- The function sends the parameters of the operation, each of them once. -/
structure Transmits (scope : Scope) (operation : Operation) (function : Callable) : Prop where
  formals : function.params.map (fun formal ↦
      (formal.name, formal.type, formal.token, formal.optional)) =
    operation.parameters.map fun parameter ↦
      (parameter.name, scope.resolve parameter.type, parameter.type.token, parameter.optional)
  body_iff : ∀ pair ∈ operation.parameters.zip function.params,
    pair.2.role = .body ↔ pair.1.source = .body
  header_iff : ∀ pair ∈ operation.parameters.zip function.params,
    pair.2.role = .header ↔ pair.1.source = .header
  path : ∃ fills, FillsPath operation function fills
  query : function.uri.query =
    ((operation.parameters.zip function.params).filter (·.2.role = .query)).map fun pair ↦
      { key := pair.1.name
        parameter := pair.1.name
        optional := pair.1.optional || pair.1.type.isNullable
        repeated := pair.1.type.isCollection }
  headers : function.headers =
    (operation.parameters.filter (·.source = .header)).map fun parameter ↦
      { header := parameter.name, parameter := parameter.name, optional := parameter.optional }
  body : function.body.toList =
    (operation.parameters.filter (·.source = .body)).map Parameter.name

namespace Binding.Binds

variable {operation : Operation} {fills : List Fill} {slots : List Slot} {bound : Bound}

/-- Parameters and formal parameters stand side by side, slot by slot. -/
theorem zip_eq (h : Binds operation fills slots bound) (scope : Scope) (docs : DocSource) :
    operation.parameters.zip (operation.function scope docs bound).params =
      slots.map fun slot ↦
        (slot.parameter, Operation.formal scope slot.parameter slot.finalRole) := by
  rw [Operation.params_function h, h.parameters_eq, List.zip_map']

theorem fillsPath (h : Binds operation fills slots bound) (scope : Scope) (docs : DocSource) :
    FillsPath operation (operation.function scope docs bound) fills := by
  have htaken : ∀ fill ∈ fills, operation.parameters[fill.position]? = some fill.parameter ∧
      mayFill fill.parameter = true ∧
        Text.eqIgnoringCase fill.parameter.name fill.placeholder = true := by
    intro fill hfill
    obtain ⟨slot, hslot, hparameter, haccepts⟩ := h.filled.accepts_fill fill hfill
    rw [List.getElem?_map, Option.map_eq_some_iff] at hslot
    obtain ⟨parameter, hposition, rfl⟩ := hslot
    have heq : parameter = fill.parameter := hparameter
    subst heq
    exact ⟨hposition, (accepts_iff.1 haccepts).2⟩
  refine
    { parameter_eq := fun fill hfill ↦ (htaken fill hfill).1
      source_eq := fun fill hfill ↦ mayFill_iff.1 (htaken fill hfill).2.1
      name_eq := fun fill hfill ↦ (htaken fill hfill).2.2
      nodup_positions := h.filled.nodup_positions
      mem_positions_iff := fun position ↦ ?_
      segments_eq := h.segments
      origins := h.origins }
  rw [h.mem_positions_iff, Operation.params_function h, List.getElem?_map]
  constructor
  · intro hexists
    obtain ⟨slot, hslot, hrole⟩ := hexists
    exact ⟨Operation.formal scope slot.parameter slot.finalRole, by rw [hslot]; rfl, hrole⟩
  · intro hexists
    obtain ⟨formal, hformal, hrole⟩ := hexists
    obtain ⟨slot, hslot, rfl⟩ := Option.map_eq_some_iff.1 hformal
    exact ⟨slot, hslot, hrole⟩

/-- A role that goes with a source belongs to the parameters of that source. -/
theorem ofRole_eq (h : Binds operation fills slots bound) {role : Role} {source : BindingSource}
    (hiff : ∀ slot ∈ slots, slot.finalRole = role ↔ slot.parameter.source = source) :
    bound.ofRole role = operation.parameters.filter (·.source = source) := by
  rw [Bound.ofRole, h.parameters, h.parameters_eq, List.filter_map, List.filter_map, List.map_map]
  have hfilter : slots.filter ((fun pair : Parameter × Role ↦ decide (pair.2 = role)) ∘
        fun slot ↦ (slot.parameter, slot.finalRole)) =
      slots.filter ((fun parameter : Parameter ↦ decide (parameter.source = source)) ∘
        Slot.parameter) :=
    List.filter_congr fun slot hslot ↦ decide_eq_decide.2 (hiff slot hslot)
  rw [hfilter]
  rfl

theorem query_eq (h : Binds operation fills slots bound) (scope : Scope) (docs : DocSource) :
    bound.uri.query =
      ((operation.parameters.zip (operation.function scope docs bound).params).filter
        (·.2.role = .query)).map fun pair ↦ queryEntry pair.1 := by
  have hentries : slots.filterMap Slot.query? =
      (slots.filter (·.finalRole = .query)).map fun slot ↦ queryEntry slot.parameter := by
    rw [← List.filterMap_eq_map, List.filterMap_filter]
    apply List.filterMap_congr
    intro slot hslot
    have hrole := h.finalRole_eq_query_iff hslot
    unfold Slot.query?
    by_cases hnone : slot.role = none
    · simp [hnone, hrole.2 hnone]
    · simp [hnone, mt hrole.1 hnone]
  calc bound.uri.query
      = slots.filterMap Slot.query? := h.query
    _ = (slots.filter (·.finalRole = .query)).map fun slot ↦ queryEntry slot.parameter := hentries
    _ = _ := by
      rw [h.zip_eq, List.filter_map, List.map_map]
      rfl

end Binding.Binds

theorem Operation.bodyName_eq {operation : Operation} (h : operation.bodies.length ≤ 1) :
    ((operation.parameters.filter (·.source = .body)).getLast?.map Parameter.name).toList =
      operation.bodies := by
  unfold Operation.bodies at h ⊢
  cases hbodies : operation.parameters.filter (·.source = .body) with
  | nil => rfl
  | cons parameter rest =>
    cases rest with
    | nil => rfl
    | cons other rest =>
      rw [hbodies] at h
      simp at h

/-- A compiled operation transmits every parameter once, in the place that its source and the
route give it. -/
theorem transmits_of_compile {scope : Scope} {docs : DocSource} {operation : Operation}
    {function : Callable} (h : operation.compile scope docs = .ok (.compiled function)) :
    Transmits scope operation function := by
  obtain ⟨-, hcheck, bound, hbind, rfl⟩ := Operation.compile_eq_compiled_iff.1 h
  obtain ⟨-, hbodies⟩ := Operation.checkBindings_eq_ok_iff.1 hcheck
  obtain ⟨fills, slots, hbinds⟩ := exists_binds_of_bind hbind
  refine
    { formals := ?_
      body_iff := ?_
      header_iff := ?_
      path := ⟨fills, hbinds.fillsPath scope docs⟩
      query := hbinds.query_eq scope docs
      headers := ?_
      body := ?_ }
  · rw [Operation.params_function hbinds, hbinds.parameters_eq, List.map_map, List.map_map]
    rfl
  · rw [hbinds.zip_eq]
    intro pair hpair
    obtain ⟨slot, hslot, rfl⟩ := List.mem_map.1 hpair
    exact hbinds.finalRole_eq_body_iff hslot
  · rw [hbinds.zip_eq]
    intro pair hpair
    obtain ⟨slot, hslot, rfl⟩ := List.mem_map.1 hpair
    exact hbinds.finalRole_eq_header_iff hslot
  · have hheaders := hbinds.ofRole_eq fun slot hslot ↦ hbinds.finalRole_eq_header_iff hslot
    exact congrArg (List.map Operation.headerBinding) hheaders
  · have hbody := hbinds.ofRole_eq fun slot hslot ↦ hbinds.finalRole_eq_body_iff hslot
    calc (operation.function scope docs bound).body.toList
        = ((bound.ofRole .body).getLast?.map Parameter.name).toList := rfl
      _ = operation.bodies := by rw [hbody, Operation.bodyName_eq hbodies]

/-! ## An operation that sends something everywhere -/

/-- The first placeholder is filled without regard to case, and the optional one is dropped. -/
def orderUpdate : Operation :=
  { name := "Update"
    container := "Shop.Controllers.OrdersController"
    verb := .put
    route := "[controller]/\x7bid\x7d/lines/\x7bline?\x7d"
    parameters :=
      [{ name := "changes", type := { name := "Shop.Changes", kind := .custom }, source := .body },
       { name := "ID", type := .ofPrimitive .int32 },
       { name := "tags", type := .array .string 1, source := .query },
       { name := "etag", type := .string, source := .header, optional := true }] }

theorem transmits_orderUpdate :
    ∃ function, orderUpdate.compile { registry := {}, config := {} } ({} : Docs) =
        .ok (.compiled function) ∧
      function.uri.display = "/Orders/\x7bID\x7d/lines?tags=\x7btags\x7d" ∧
      Transmits { registry := {}, config := {} } orderUpdate function :=
  ⟨_, rfl, by decide, transmits_of_compile rfl⟩

end TypedClient
