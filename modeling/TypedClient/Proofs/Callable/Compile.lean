import TypedClient.Callable.Compile
import TypedClient.Proofs.Callable.Binding
import TypedClient.Proofs.Except

/-!
# What compiling an operation does

An operation becomes a function when its method is supported, its bindings pass
the check and its route can be filled. Every error of compiling is about the
operation, and names it.
-/

namespace TypedClient

/-- Container and name of the operation an error is about; a reference that dangles is not the
fault of an operation. -/
def CompileError.operation? : CompileError → Option (String × String)
  | ambiguousBody container operation _ => some (container, operation)
  | unbindableParameter container operation _ _ _ => some (container, operation)
  | unknownBinding container operation _ _ => some (container, operation)
  | unboundPlaceholder container operation _ _ => some (container, operation)
  | danglingReference _ _ => none

namespace Operation

variable {scope : Scope} {docs : DocSource} {operation : Operation}

theorem checkBindings_eq_ok_iff : operation.checkBindings = .ok () ↔
    (∀ parameter ∈ operation.parameters, operation.bindingError? parameter = none) ∧
      operation.bodies.length ≤ 1 := by
  rw [← List.findSome?_eq_none_iff, checkBindings]
  cases operation.parameters.findSome? operation.bindingError? with
  | none =>
    by_cases hbodies : 1 < operation.bodies.length
    · simp [hbodies]
    · simp [hbodies, Nat.not_lt.1 hbodies]
  | some error => simp

theorem compile_eq_compiled_iff {function : Callable} :
    operation.compile scope docs = .ok (.compiled function) ↔
      operation.verb.isSupported = true ∧ operation.checkBindings = .ok () ∧
        ∃ bound, operation.bind = .ok bound ∧ function = operation.function scope docs bound := by
  unfold compile
  cases operation.verb.isSupported with
  | false => simp
  | true =>
    simp only [if_true, Except.bind_eq_ok_iff]
    constructor
    · intro hexists
      obtain ⟨⟨⟩, hcheck, bound, hbind, hfunction⟩ := hexists
      exact ⟨trivial, hcheck, bound, hbind, (Outcome.compiled.inj (Except.ok.inj hfunction)).symm⟩
    · intro hexists
      obtain ⟨-, hcheck, bound, hbind, rfl⟩ := hexists
      exact ⟨(), hcheck, bound, hbind, rfl⟩

/-- A bound operation has a formal parameter for every slot, with the role the slot ends in. -/
theorem params_function {fills : List Binding.Fill} {slots : List Binding.Slot} {bound : Bound}
    (h : Binding.Binds operation fills slots bound) :
    (operation.function scope docs bound).params =
      slots.map fun slot ↦ formal scope slot.parameter slot.finalRole := by
  have hparams : (operation.function scope docs bound).params =
      bound.parameters.map fun pair ↦ formal scope pair.1 pair.2 := rfl
  rw [hparams, h.parameters, List.map_map]
  rfl

/-- A compiled function refers to the types of its operation, each of them resolved. -/
theorem references_of_compile {function : Callable}
    (h : operation.compile scope docs = .ok (.compiled function)) :
    function.returns = (operation.response.map scope.resolve).getD .void ∧
      function.params.map FormalParameter.type =
        operation.parameters.map fun parameter ↦ scope.resolve parameter.type := by
  obtain ⟨-, -, bound, hbind, rfl⟩ := compile_eq_compiled_iff.1 h
  obtain ⟨fills, slots, hbinds⟩ := Binding.exists_binds_of_bind hbind
  refine ⟨rfl, ?_⟩
  rw [params_function hbinds, hbinds.parameters_eq, List.map_map, List.map_map]
  rfl

/-! ## Errors -/

theorem operation?_of_bindingError? {parameter : Parameter} {error : CompileError}
    (h : operation.bindingError? parameter = some error) :
    error.operation? = some (operation.container, operation.name) := by
  unfold bindingError? at h
  split at h
  · rw [← Option.some.inj h]
    rfl
  · contradiction
  · split at h
    · contradiction
    · rw [← Option.some.inj h]
      rfl

theorem operation?_of_checkBindings {error : CompileError}
    (h : operation.checkBindings = .error error) :
    error.operation? = some (operation.container, operation.name) := by
  unfold checkBindings at h
  split at h
  · rename_i found hfound
    obtain ⟨parameter, -, hparameter⟩ := List.exists_of_findSome?_eq_some hfound
    rw [← Except.error.inj h]
    exact operation?_of_bindingError? hparameter
  · split at h
    · rw [← Except.error.inj h]
      rfl
    · contradiction

theorem operation?_of_bind {error : CompileError} (h : operation.bind = .error error) :
    error.operation? = some (operation.container, operation.name) := by
  unfold bind at h
  split at h
  · rw [← Except.error.inj h]
    rfl
  · contradiction

/-- An error of compiling names the operation that could not be compiled. -/
theorem operation?_of_compile {error : CompileError}
    (h : operation.compile scope docs = .error error) :
    error.operation? = some (operation.container, operation.name) := by
  unfold compile at h
  split at h
  · rw [Except.bind_eq_error_iff] at h
    rcases h with hcheck | ⟨_, -, h⟩
    · exact operation?_of_checkBindings hcheck
    · rw [Except.bind_eq_error_iff] at h
      rcases h with hbind | ⟨_, -, h⟩
      · exact operation?_of_bind hbind
      · contradiction
  · contradiction

end Operation

end TypedClient
