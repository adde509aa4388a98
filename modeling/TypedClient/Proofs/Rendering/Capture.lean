import TypedClient.Proofs.Rendering.Parameters
import TypedClient.Proofs.Rendering.References

/-!
# Names that a body relies on

A body relies on the names to which it refers whatever its parameters are
called, and a parameter of such a name would be taken for what the body means.
The names of parameters are never declared in a body and never start with a
capital, so they are safe but for the global values that are spelled like a
parameter.
-/

namespace TypedClient

open TypeScript (Stmt Param localName)

namespace Callable

/-! ## Other names of parameters -/

/-- The function with other names of its parameters. -/
def relabel (rename : String → String) (function : Callable) : Callable :=
  { function with
    params := function.params.map fun param ↦ { param with name := rename param.name }
    uri :=
      { segments := function.uri.segments.map fun
          | .literal text => .literal text
          | .parameter name catchAll => .parameter (rename name) catchAll
        query := function.uri.query.map fun entry ↦
          { entry with parameter := rename entry.parameter } }
    body := function.body.map rename
    headers := function.headers.map fun header ↦
      { header with parameter := rename header.parameter } }

section

variable {rename : String → String} (hrename : Function.Injective rename)

theorem filterMap_parameter_relabel (rename : String → String) (function : Callable) :
    (function.relabel rename).uri.segments.filterMap UriSegment.parameter? =
      (function.uri.segments.filterMap UriSegment.parameter?).map rename := by
  rw [relabel, List.filterMap_map, List.map_filterMap]
  congr
  funext segment
  cases segment <;> rfl

theorem reads_relabel (rename : String → String) (function : Callable) :
    (function.relabel rename).reads = function.reads.map rename := by
  have hquery : (function.relabel rename).uri.query.map QueryEntry.parameter =
      (function.uri.query.map QueryEntry.parameter).map rename := by
    simp [relabel, Function.comp_def]
  have hheaders : (function.relabel rename).headers.map HeaderBinding.parameter =
      (function.headers.map HeaderBinding.parameter).map rename := by
    simp [relabel, Function.comp_def]
  have hbody : (function.relabel rename).body.toList = function.body.toList.map rename := by
    cases hsome : function.body <;> simp [relabel, hsome]
  simp only [reads, filterMap_parameter_relabel, hquery, hheaders, hbody, List.map_append]

include hrename

theorem isOptional_relabel (function : Callable) (name : String) :
    (function.relabel rename).isOptional (rename name) = function.isOptional name := by
  have hfind : (function.relabel rename).param? (rename name) =
      (function.param? name).map fun param ↦ { param with name := rename param.name } := by
    rw [param?, param?, relabel, List.find?_map]
    congr
    funext param
    simp [hrename.eq_iff]
  rw [isOptional, isOptional, hfind]
  cases function.param? name <;> rfl

theorem exposes_relabel_iff {flavor : Flavor} {function : Callable} {name : String} :
    (function.relabel rename).Exposes flavor name ↔ function.Exposes flavor name := by
  constructor
  · intro h
    cases h with
    | fetch hfetch => exact .fetch hfetch
    | encode hne =>
      rw [filterMap_parameter_relabel] at hne
      exact .encode (by simpa using hne)
    | queryPresence entry hentry hoptional hsingle =>
      obtain ⟨source, hsource, rfl⟩ := List.mem_map.1 hentry
      exact .queryPresence source hsource hoptional hsingle
    | headerPresence header hheader hconditional =>
      obtain ⟨source, hsource, rfl⟩ := List.mem_map.1 hheader
      rw [isConditional, isOptional_relabel hrename] at hconditional
      exact .headerPresence source hsource hconditional
  · intro h
    cases h with
    | fetch hfetch => exact .fetch hfetch
    | encode hne =>
      refine .encode ?_
      rw [filterMap_parameter_relabel]
      simpa using hne
    | queryPresence entry hentry hoptional hsingle =>
      exact .queryPresence _ (List.mem_map_of_mem hentry) hoptional hsingle
    | headerPresence header hheader hconditional =>
      refine .headerPresence _ (List.mem_map_of_mem hheader) ?_
      rwa [isConditional, isOptional_relabel hrename]

end

/-- The body refers to the name whatever the parameters are called. -/
def ReliesOn (config : Config) (flavor : Flavor) (function : Callable) (name : String) : Prop :=
  ∀ rename : String → String, Function.Injective rename →
    name ∈ Stmt.namesList ((function.relabel rename).statements config flavor)

theorem reliesOn_localName_iff (config : Config) (flavor : Flavor) (function : Callable)
    (name : String) :
    function.ReliesOn config flavor (localName name) ↔
      function.Exposes flavor (localName name) := by
  have hfixed := localName_not_mem_fixedNames name
  constructor
  · intro h
    -- under a letter in front, no parameter has the name in question
    obtain ⟨letter, hseparates, hhead⟩ : ∃ letter, TypeScript.Separates letter ∧
        (localName name).toList.head? ≠ some letter := by
      by_cases hx : (localName name).toList.head? = some 'x'
      · exact ⟨'z', TypeScript.separates_z, by simp [hx]⟩
      · exact ⟨'x', TypeScript.separates_x, hx⟩
    have hinjective : Function.Injective
        fun other : String ↦ String.ofList (letter :: other.toList) := by
      intro left right heq
      simpa using heq
    rcases (mem_names_statements_iff hfixed config flavor _).1 (h _ hinjective) with
      ⟨parameter, hparameter, heq⟩ | hexposes
    · rw [reads_relabel] at hparameter
      obtain ⟨source, -, rfl⟩ := List.mem_map.1 hparameter
      have hstarts : (localName name).toList.head? = some letter := by
        rw [heq]
        exact hseparates.head_localName source
      exact absurd hstarts hhead
    · exact (exposes_relabel_iff hinjective).1 hexposes
  · intro h rename hrename
    have hexposes := (exposes_relabel_iff hrename).2 h
    exact (mem_names_statements_iff hfixed config flavor _).2 (.inr hexposes)

/-- Parameters stay away from the names that the body of their method declares. Of the global
values that the body relies on, they stay away from all but those that are spelled like one. -/
theorem reliesOn_param_iff (config : Config) (flavor : Flavor) (function : Callable) :
    ∀ param ∈ (function.method config flavor).params,
      param.name ∉ Stmt.declaredList (function.method config flavor).body ∧
        (function.ReliesOn config flavor param.name ↔ function.Exposes flavor param.name) := by
  intro param hparam
  have hname := List.mem_map_of_mem (f := Param.name) hparam
  rw [names_params_method, List.map_map] at hname
  obtain ⟨formal, -, hformal⟩ := List.mem_map.1 hname
  rw [← hformal]
  exact ⟨fun hmem ↦ TypeScript.localName_not_mem_methodLocals formal.name
      (declaredList_statements_subset config flavor function hmem),
    reliesOn_localName_iff config flavor function formal.name⟩

end Callable

/-! ## A parameter called fetch -/

def fetchSearch : Operation :=
  { name := "List"
    container := "Shop.ItemsController"
    verb := .get
    route := "items"
    parameters := [{ name := "fetch", type := .string, source := .query }] }

def fetchSearchFunction : Callable :=
  { name := "List"
    sourceName := "List"
    verb := .get
    params :=
      [{ name := "fetch", type := .scalar .string, token := "String", optional := false,
         role := .query }]
    returns := .void
    strategy := .nothing
    uri :=
      { segments := [.literal "/items"]
        query := [{ key := "fetch", parameter := "fetch", optional := false, repeated := false }] }
    body := none
    headers := []
    doc := none }

theorem compile_fetchSearch :
    fetchSearch.compile { registry := {}, config := {} } ({} : Docs) =
      .ok (.compiled fetchSearchFunction) :=
  rfl

theorem names_fetchSearch (flavor : Flavor) :
    (fetchSearchFunction.method {} flavor).params.map Param.name = ["fetch"] := by
  rw [Callable.names_params_method]
  decide

/-- The method calls its own parameter where it means to send the request. -/
theorem reliesOn_fetch :
    (fetchSearchFunction.method {} .fetch).params.map Param.name = ["fetch"] ∧
      fetchSearchFunction.ReliesOn {} .fetch "fetch" := by
  refine ⟨names_fetchSearch .fetch, ?_⟩
  have hfetch : "fetch" ∈ (fetchSearchFunction.method {} .fetch).params.map Param.name := by
    rw [names_fetchSearch]
    exact List.mem_cons_self
  obtain ⟨param, hparam, hname⟩ := List.mem_map.1 hfetch
  have hrelies := (fetchSearchFunction.reliesOn_param_iff {} .fetch param hparam).2
  rw [hname] at hrelies
  exact hrelies.2 (.fetch rfl)

/-- A parameter may hide a global value that the body relies on. -/
theorem not_forall_no_capture :
    ¬ ∀ (scope : Scope) (docs : DocSource) (operation : Operation) (function : Callable),
      operation.compile scope docs = .ok (.compiled function) →
        ∀ (config : Config) (flavor : Flavor),
          ∀ name ∈ (function.method config flavor).params.map Param.name,
            name ∉ Stmt.declaredList (function.method config flavor).body ∧
              ¬ function.ReliesOn config flavor name := by
  intro hall
  have hfetch : localName "fetch" = "fetch" := by decide
  have hrelies := fetchSearchFunction.reliesOn_localName_iff {} .fetch "fetch"
  rw [hfetch] at hrelies
  have hname : "fetch" ∈ (fetchSearchFunction.method {} .fetch).params.map Param.name := by
    rw [names_fetchSearch]
    exact List.mem_cons_self
  exact (hall _ _ _ _ compile_fetchSearch {} .fetch _ hname).2 (hrelies.2 (.fetch rfl))

end TypedClient
