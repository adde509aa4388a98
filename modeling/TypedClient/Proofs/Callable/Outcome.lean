import TypedClient.Proofs.Callable.Claiming
import TypedClient.Proofs.Callable.Compile
import TypedClient.Proofs.SourceType.Carriage

/-!
# How compiling an operation ends

An operation with an unsupported method is skipped, and nothing else about it is
looked at. Otherwise the parameters are judged one by one, then the bodies are
counted, then the placeholders are matched; the first rule that is broken gives
the error, and an operation that breaks none becomes a function.
-/

namespace TypedClient

namespace Operation

/-- A parameter that cannot be bound, whatever the others are, and the error about it. -/
inductive Refuses (operation : Operation) (parameter : Parameter) : CompileError → Prop
  | unknownSource {source : String} (hsource : parameter.source = .unknown source) :
      Refuses operation parameter
        (.unknownBinding operation.container operation.name parameter.name source)
  | notCarriable (hsource : parameter.source.isUnknown = false) (hbody : parameter.source ≠ .body)
      (htype : ¬ parameter.type.Carriable) :
      Refuses operation parameter (.unbindableParameter operation.container operation.name
        parameter.name parameter.type.name parameter.source.name)

/-- Each parameter can be bound by itself. -/
def Bindable (operation : Operation) : Prop :=
  ∀ parameter ∈ operation.parameters, ∀ error, ¬ operation.Refuses parameter error

/-- How many parameters may fill a placeholder of the name. -/
def candidates (operation : Operation) (name : String) : Nat :=
  operation.parameters.countP fun parameter ↦
    Binding.mayFill parameter && Text.eqIgnoringCase parameter.name name

/-- The errors of an operation with a supported method. Each rule counts only where those before
it are kept. -/
inductive Fails (operation : Operation) : CompileError → Prop
  | parameter {error : CompileError}
      (h : Leftmost (fun _ ↦ operation.Refuses) operation.parameters error) : Fails operation error
  | bodies (hbindable : operation.Bindable) (hbodies : 2 ≤ operation.bodies.length) :
      Fails operation (.ambiguousBody operation.container operation.name operation.bodies)
  | placeholder {name : String} (hbindable : operation.Bindable)
      (hbodies : operation.bodies.length ≤ 1)
      (h : Leftmost (Route.Unmet operation.candidates) operation.routeParts name) :
      Fails operation
        (.unboundPlaceholder operation.container operation.name operation.route name)

variable {scope : Scope} {docs : DocSource} {operation : Operation}

/-! ## The steps -/

theorem bindingError?_eq_some_iff {parameter : Parameter} {error : CompileError} :
    operation.bindingError? parameter = some error ↔ operation.Refuses parameter error := by
  unfold bindingError?
  constructor
  · intro h
    split at h
    · rename_i source hsource
      exact Option.some.inj h ▸ .unknownSource hsource
    · contradiction
    · rename_i hunknown hbody
      split at h
      · contradiction
      · rename_i htype
        obtain rfl := Option.some.inj h
        refine .notCarriable ?_ hbody fun hcarriable ↦ htype (SourceType.isSimple_iff.2 hcarriable)
        cases hsource : parameter.source with
        | unknown name => exact absurd hsource (hunknown name)
        | _ => rfl
  · intro h
    cases h with
    | unknownSource hsource => rw [hsource]
    | notCarriable hsource hbody htype =>
      have hsimple : ¬ parameter.type.isSimple = true := fun h ↦
        htype (SourceType.isSimple_iff.1 h)
      cases hname : parameter.source with
      | unknown name => simp [hname, BindingSource.isUnknown] at hsource
      | body => exact absurd hname hbody
      | _ => simp [hsimple]

theorem forall_bindingError?_eq_none_iff :
    (∀ parameter ∈ operation.parameters, operation.bindingError? parameter = none) ↔
      operation.Bindable := by
  simp only [Bindable, ← bindingError?_eq_some_iff, Option.eq_none_iff_forall_ne_some]

theorem checkBindings_eq_error_iff {error : CompileError} :
    operation.checkBindings = .error error ↔
      Leftmost (fun _ ↦ operation.Refuses) operation.parameters error ∨
        operation.Bindable ∧ 2 ≤ operation.bodies.length ∧
          error = .ambiguousBody operation.container operation.name operation.bodies := by
  have hleftmost : Leftmost (fun _ ↦ operation.Refuses) operation.parameters error ↔
      operation.parameters.findSome? operation.bindingError? = some error := by
    rw [findSome?_eq_some_iff_leftmost]
    exact Leftmost.congr (fun _ _ _ ↦ bindingError?_eq_some_iff.symm) _
  rw [hleftmost, ← forall_bindingError?_eq_none_iff, ← List.findSome?_eq_none_iff, checkBindings]
  cases operation.parameters.findSome? operation.bindingError? with
  | some found => simp
  | none =>
    by_cases hbodies : 1 < operation.bodies.length
    · simp [hbodies, eq_comm, Nat.succ_le_iff]
    · simp [hbodies, Nat.succ_le_iff]

/-- Before a route is filled, the free slots are the parameters that may stand in the path. -/
theorem supply_map_slotOf (operation : Operation) :
    Binding.supply (operation.parameters.map Binding.slotOf) = operation.candidates := by
  funext name
  rw [Binding.supply, candidates, List.countP_map]
  apply List.countP_congr
  intro parameter _
  rw [Function.comp_apply, Binding.accepts, Binding.slotOf, Binding.mayFill]
  cases parameter.source <;> simp

theorem bind_eq_error_iff {error : CompileError} : operation.bind = .error error ↔
    ∃ name, Leftmost (Route.Unmet operation.candidates) operation.routeParts name ∧
      error = .unboundPlaceholder operation.container operation.name operation.route name := by
  simp only [← supply_map_slotOf, ← Binding.fillFrom_eq_error_iff [], bind]
  cases Binding.fillFrom [] (operation.parameters.map Binding.slotOf) operation.routeParts with
  | error name => simp [eq_comm]
  | ok filled => simp

/-! ## The outcome -/

theorem fails_iff {error : CompileError} : operation.Fails error ↔
    operation.checkBindings = .error error ∨
      operation.checkBindings = .ok () ∧ operation.bind = .error error := by
  rw [checkBindings_eq_error_iff, checkBindings_eq_ok_iff, forall_bindingError?_eq_none_iff,
    bind_eq_error_iff]
  constructor
  · intro h
    cases h with
    | parameter h => exact .inl (.inl h)
    | bodies hbindable hbodies => exact .inl (.inr ⟨hbindable, hbodies, rfl⟩)
    | placeholder hbindable hbodies h => exact .inr ⟨⟨hbindable, hbodies⟩, _, h, rfl⟩
  · intro h
    rcases h with (h | ⟨hbindable, hbodies, rfl⟩) | ⟨⟨hbindable, hbodies⟩, name, h, rfl⟩
    · exact .parameter h
    · exact .bodies hbindable hbodies
    · exact .placeholder hbindable hbodies h

theorem compile_eq_error_iff {error : CompileError} :
    operation.compile scope docs = .error error ↔
      operation.verb.isSupported = true ∧ operation.Fails error := by
  rw [fails_iff, compile]
  cases operation.verb.isSupported with
  | false => simp
  | true =>
    simp only [if_true, Except.bind_eq_error_iff, true_and]
    apply or_congr_right
    constructor
    · intro h
      obtain ⟨⟨⟩, hcheck, hbind | ⟨bound, -, hfunction⟩⟩ := h
      · exact ⟨hcheck, hbind⟩
      · contradiction
    · intro h
      obtain ⟨hcheck, hbind⟩ := h
      exact ⟨(), hcheck, .inl hbind⟩

theorem compile_eq_skipped_iff {diagnostic : Diagnostic} :
    operation.compile scope docs = .ok (.skipped diagnostic) ↔
      operation.verb.isSupported = false ∧
        diagnostic = .unsupportedVerb operation.container operation.name operation.verb.name := by
  unfold compile
  cases operation.verb.isSupported with
  | false => simp [eq_comm]
  | true =>
    simp only [if_true, Except.bind_eq_ok_iff]
    constructor
    · intro h
      obtain ⟨-, -, bound, -, hfunction⟩ := h
      have houtcome := Except.ok.inj hfunction
      contradiction
    · intro h
      obtain ⟨hsupported, -⟩ := h
      contradiction

/-- An operation is skipped, fails or becomes a function. It is skipped exactly if its method is not
supported, and fails exactly with the error of the first rule that it breaks. -/
theorem compile_outcome (scope : Scope) (docs : DocSource) (operation : Operation) :
    (∀ diagnostic, operation.compile scope docs = .ok (.skipped diagnostic) ↔
      operation.verb.isSupported = false ∧
        diagnostic = .unsupportedVerb operation.container operation.name operation.verb.name) ∧
    (∀ error, operation.compile scope docs = .error error ↔
      operation.verb.isSupported = true ∧ operation.Fails error) ∧
    ((∃ function, operation.compile scope docs = .ok (.compiled function)) ↔
      operation.verb.isSupported = true ∧ ∀ error, ¬ operation.Fails error) := by
  refine ⟨fun _ ↦ compile_eq_skipped_iff, fun _ ↦ compile_eq_error_iff, ?_⟩
  constructor
  · intro hexists
    obtain ⟨function, hcompile⟩ := hexists
    have hsupported := (compile_eq_compiled_iff.1 hcompile).1
    refine ⟨hsupported, fun error hfails ↦ ?_⟩
    rw [compile_eq_error_iff.2 ⟨hsupported, hfails⟩] at hcompile
    contradiction
  · intro h
    obtain ⟨hsupported, hkept⟩ := h
    cases hcompile : operation.compile scope docs with
    | error error => exact absurd (compile_eq_error_iff.1 hcompile).2 (hkept error)
    | ok outcome =>
      cases outcome with
      | compiled function => exact ⟨function, rfl⟩
      | skipped diagnostic =>
        rw [(compile_eq_skipped_iff.1 hcompile).1] at hsupported
        contradiction

end Operation

end TypedClient
