import Mathlib.Data.List.Forall2
import TypedClient.Generation
import TypedClient.Proofs.Callable.Outcome
import TypedClient.Proofs.Registry

/-!
# Steps of a run

A run compiles the operations one after the other, assembles a client, links it
and tells overloads apart. It fails where an operation fails or where linking
does, and nowhere else.
-/

namespace TypedClient

namespace Generation

variable {filter : MemberFilter} {config : Config} {docs : DocSource} {metadata : Metadata}
  {scope : Scope}

theorem scopeOf_types (config : Config) (types : List SourceType) :
    (scopeOf config types).registry.types = SourceType.pending types :=
  SourceType.ofList_pending_types types

/-- Every compiled function comes from an operation and is placed by it. -/
theorem exists_compile_of_mem_compileAll {operations : List Operation} {functions : List Placed}
    {skipped : List Diagnostic} (h : compileAll scope docs operations = .ok (functions, skipped))
    {placed : Placed} (hmem : placed ∈ functions) :
    ∃ operation ∈ operations, ∃ function,
      operation.compile scope docs = .ok (.compiled function) ∧
        placed = place scope.config operation function := by
  induction operations generalizing functions skipped with
  | nil =>
    simp only [compileAll, Except.ok.injEq, Prod.mk.injEq] at h
    obtain ⟨rfl, -⟩ := h
    contradiction
  | cons operation operations ih =>
    simp only [compileAll, Except.bind_eq_ok_iff] at h
    obtain ⟨outcome, houtcome, ⟨rest, restSkipped⟩, hrest, h⟩ := h
    have later (hmem : placed ∈ rest) : ∃ other ∈ operation :: operations, ∃ function,
        other.compile scope docs = .ok (.compiled function) ∧
          placed = place scope.config other function := by
      obtain ⟨other, hother, hplaced⟩ := ih hrest hmem
      exact ⟨other, List.mem_cons_of_mem _ hother, hplaced⟩
    cases outcome with
    | compiled function =>
      obtain ⟨rfl, -⟩ := Prod.mk.inj (Except.ok.inj h)
      rcases List.mem_cons.1 hmem with rfl | hmem
      · exact ⟨operation, List.mem_cons_self, function, houtcome, rfl⟩
      · exact later hmem
    | skipped diagnostic =>
      obtain ⟨rfl, -⟩ := Prod.mk.inj (Except.ok.inj h)
      exact later hmem

/-- Operations with a supported method become functions, one each and in their order, and the
others become warnings. -/
theorem forall₂_of_compileAll {operations : List Operation} {functions : List Placed}
    {skipped : List Diagnostic} (h : compileAll scope docs operations = .ok (functions, skipped)) :
    List.Forall₂ (fun operation placed ↦
        operation.compile scope docs = .ok (.compiled placed.function) ∧
          placed = place scope.config operation placed.function)
      (operations.filter (·.verb.isSupported)) functions ∧
    skipped = (operations.filter (!·.verb.isSupported)).map fun operation ↦
      .unsupportedVerb operation.container operation.name operation.verb.name := by
  induction operations generalizing functions skipped with
  | nil =>
    simp only [compileAll, Except.ok.injEq, Prod.mk.injEq] at h
    obtain ⟨rfl, rfl⟩ := h
    exact ⟨.nil, rfl⟩
  | cons operation operations ih =>
    simp only [compileAll, Except.bind_eq_ok_iff] at h
    obtain ⟨outcome, houtcome, ⟨rest, restSkipped⟩, hrest, h⟩ := h
    obtain ⟨hfunctions, rfl⟩ := ih hrest
    cases outcome with
    | compiled function =>
      obtain ⟨rfl, rfl⟩ := Prod.mk.inj (Except.ok.inj h)
      have hsupported := (Operation.compile_eq_compiled_iff.1 houtcome).1
      simp only [List.filter_cons, hsupported, if_true, Bool.not_true, Bool.false_eq_true, if_false]
      exact ⟨.cons ⟨houtcome, rfl⟩ hfunctions, trivial⟩
    | skipped diagnostic =>
      obtain ⟨rfl, rfl⟩ := Prod.mk.inj (Except.ok.inj h)
      obtain ⟨hunsupported, rfl⟩ := Operation.compile_eq_skipped_iff.1 houtcome
      simp only [List.filter_cons, hunsupported, Bool.false_eq_true, if_false, Bool.not_false,
        if_true]
      exact ⟨hfunctions, rfl⟩

/-- Compiling all operations fails only where one of them does. -/
theorem exists_compile_eq_error {operations : List Operation} {error : CompileError}
    (h : compileAll scope docs operations = .error error) :
    ∃ operation ∈ operations, operation.compile scope docs = .error error := by
  induction operations with
  | nil => contradiction
  | cons operation operations ih =>
    simp only [compileAll, Except.bind_eq_error_iff] at h
    rcases h with hoperation | ⟨outcome, -, hrest | ⟨⟨rest, restSkipped⟩, -, h⟩⟩
    · exact ⟨operation, List.mem_cons_self, hoperation⟩
    · obtain ⟨other, hother, hcompile⟩ := ih hrest
      exact ⟨other, List.mem_cons_of_mem _ hother, hcompile⟩
    · cases outcome <;> contradiction

/-- Compiling all operations succeeds where each of them does, in whatever order they come. -/
theorem exists_compileAll_eq_ok_iff {operations : List Operation} :
    (∃ result, compileAll scope docs operations = .ok result) ↔
      ∀ operation ∈ operations, ∃ outcome, operation.compile scope docs = .ok outcome := by
  induction operations with
  | nil => simp [compileAll]
  | cons operation operations ih =>
    rw [List.forall_mem_cons, ← ih]
    simp only [compileAll, Except.bind_eq_ok_iff]
    constructor
    · intro hexists
      obtain ⟨-, outcome, houtcome, rest, hrest, -⟩ := hexists
      exact ⟨⟨outcome, houtcome⟩, rest, hrest⟩
    · intro hboth
      obtain ⟨⟨outcome, houtcome⟩, rest, hrest⟩ := hboth
      cases outcome with
      | compiled function => exact ⟨_, _, houtcome, rest, hrest, rfl⟩
      | skipped diagnostic => exact ⟨_, _, houtcome, rest, hrest, rfl⟩

/-- The client of a run before its bases are linked. -/
def assembled (filter : MemberFilter) (config : Config) (docs : DocSource) (metadata : Metadata)
    (functions : List Placed) : Client :=
  Client.build config
    (Client.declarations (scopeOf config metadata.types) filter docs
      (SourceType.pending metadata.types)) functions

theorem runWith_eq_error {error : CompileError}
    (h : runWith filter config docs metadata = .error error) :
    compileAll (scopeOf config metadata.types) docs metadata.operations = .error error ∨
      ∃ functions skipped,
        compileAll (scopeOf config metadata.types) docs metadata.operations =
          .ok (functions, skipped) ∧
        ((assembled filter config docs metadata functions).link
          (scopeOf config metadata.types)).2 = .error error := by
  simp only [runWith, Except.bind_eq_error_iff] at h
  rcases h with hcompile | ⟨⟨functions, skipped⟩, hcompile, hlink | ⟨externals, -, h⟩⟩
  · exact .inl hcompile
  · exact .inr ⟨functions, skipped, hcompile, hlink⟩
  · contradiction

/-- The steps of a run that succeeds, and the warnings that each of them adds. -/
theorem runWith_eq_ok_iff {generation : Generation} :
    runWith filter config docs metadata = .ok generation ↔
      ∃ functions skipped externals,
        compileAll (scopeOf config metadata.types) docs metadata.operations =
          .ok (functions, skipped) ∧
        ((assembled filter config docs metadata functions).link
          (scopeOf config metadata.types)).2 = .ok externals ∧
        generation =
          { client := (((assembled filter config docs metadata functions).linkBases
              (scopeOf config metadata.types)).disambiguate config.disambiguateByType).1
            diagnostics := SourceType.undeclared metadata.types ++ skipped ++ externals ++
              (((assembled filter config docs metadata functions).linkBases
                (scopeOf config metadata.types)).disambiguate config.disambiguateByType).2 } := by
  simp only [runWith, Except.bind_eq_ok_iff]
  constructor
  · intro h
    obtain ⟨⟨functions, skipped⟩, hcompile, externals, hlink, h⟩ := h
    exact ⟨functions, skipped, externals, hcompile, hlink, (Except.ok.inj h).symm⟩
  · intro h
    obtain ⟨functions, skipped, externals, hcompile, hlink, rfl⟩ := h
    exact ⟨(functions, skipped), hcompile, externals, hlink, rfl⟩

theorem runWith_eq_ok {generation : Generation}
    (h : runWith filter config docs metadata = .ok generation) :
    ∃ functions skipped externals,
      compileAll (scopeOf config metadata.types) docs metadata.operations =
        .ok (functions, skipped) ∧
      ((assembled filter config docs metadata functions).link
        (scopeOf config metadata.types)).2 = .ok externals ∧
      generation.client = (((assembled filter config docs metadata functions).linkBases
        (scopeOf config metadata.types)).disambiguate config.disambiguateByType).1 := by
  obtain ⟨functions, skipped, externals, hcompile, hlink, rfl⟩ := runWith_eq_ok_iff.1 h
  exact ⟨functions, skipped, externals, hcompile, hlink, rfl⟩

end Generation

end TypedClient
