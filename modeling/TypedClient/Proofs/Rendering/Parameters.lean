import Mathlib.Data.List.Nodup
import TypedClient.Proofs.Callable.Transmission
import TypedClient.Proofs.Rendering.Sending

/-!
# Parameters of methods

A method has one parameter for each formal parameter of its function, under the
identifier made from its name. The identifiers are different, and each part of a
request is made of its own argument, exactly if no two of the names merge: by
what separates their words, by the case of leading capitals, or by a mark that
the one receives and the other one has.
-/

namespace TypedClient

open TypeScript (Merges Method Param Value Platform Environment Sent Stmt localName
  localName_eq_localName_iff)

namespace TypeScript

/-- What the names of parameters stand for in a call. -/
def Environment.ofCall : List String → List Value → Environment
  | name :: names, value :: values => Function.update (ofCall names values) name (some value)
  | _, _ => fun _ ↦ none

/-- What a method sends when it is called. -/
def Method.send (platform : Platform) (method : Method) (arguments : List Value) : Option Sent :=
  Stmt.send platform (.ofCall (method.params.map Param.name) arguments) method.body

theorem Param.names_ofFormals (params : List FormalParameter) :
    (Param.ofFormals params).map Param.name =
      (params.map FormalParameter.name).map localName := by
  induction params with
  | nil => rfl
  | cons param params ih =>
    rw [ofFormals, List.map_cons, ih]
    rfl

namespace Environment

theorem ofCall_eq_none {names : List String} {arguments : List Value} {name : String}
    (h : name ∉ names) : ofCall names arguments name = none := by
  induction names generalizing arguments with
  | nil => rfl
  | cons other names ih =>
    rw [List.mem_cons, not_or] at h
    cases arguments with
    | nil => rfl
    | cons value arguments => rw [ofCall, Function.update_of_ne h.1, ih h.2]

theorem exists_ofCall_eq_some {names : List String} {arguments : List Value}
    (hlength : arguments.length = names.length) {name : String} (h : name ∈ names) :
    ∃ value, ofCall names arguments name = some value := by
  induction names generalizing arguments with
  | nil => simp at h
  | cons other names ih =>
    cases arguments with
    | nil => simp at hlength
    | cons value arguments =>
      rw [ofCall]
      by_cases hname : name = other
      · exact ⟨value, by rw [hname, Function.update_self]⟩
      · rw [Function.update_of_ne hname]
        exact ih (Nat.succ.inj hlength) (List.mem_of_ne_of_mem hname h)

/-- Names that stay different keep their arguments. -/
theorem ofCall_map {rename : String → String} {names : List String} (arguments : List Value)
    {name : String} (h : ∀ other ∈ names, rename other = rename name → other = name) :
    ofCall (names.map rename) arguments (rename name) = ofCall names arguments name := by
  induction names generalizing arguments with
  | nil => rfl
  | cons other names ih =>
    obtain ⟨hother, hnames⟩ := List.forall_mem_cons.1 h
    cases arguments with
    | nil => rfl
    | cons value arguments =>
      rw [List.map_cons, ofCall, ofCall]
      by_cases hname : name = other
      · rw [hname, Function.update_self, Function.update_self]
      · have hrename : rename name ≠ rename other := fun heq ↦ hname (hother heq.symm).symm
        rw [Function.update_of_ne hrename, Function.update_of_ne hname, ih arguments hnames]

end Environment

end TypeScript

namespace Callable

/-- The argument that a call passes for the formal parameter of a name. -/
def passed (function : Callable) (arguments : List Value) (name : String) : Value :=
  (Environment.ofCall (function.params.map FormalParameter.name) arguments name).getD .undefined

theorem names_params_method (config : Config) (flavor : Flavor) (function : Callable) :
    (function.method config flavor).params.map Param.name =
      (function.params.map FormalParameter.name).map localName :=
  Param.names_ofFormals function.params

/-- Different names have one identifier exactly if they merge. -/
theorem injOn_localName_iff (params : List FormalParameter) :
    (∀ left ∈ params.map FormalParameter.name, ∀ right ∈ params.map FormalParameter.name,
        localName left = localName right → left = right) ↔
      ∀ left ∈ params, ∀ right ∈ params, left.name ≠ right.name →
        ¬ Merges left.name right.name := by
  simp only [List.forall_mem_map]
  constructor
  · intro hinj left hleft right hright hne hmerges
    exact hne (hinj left hleft right hright (localName_eq_localName_iff.2 (.inl hmerges)))
  · intro hnone left hleft right hright heq
    by_contra hne
    rcases localName_eq_localName_iff.1 heq with hmerges | hmerges
    · exact hnone left hleft right hright hne hmerges
    · exact hnone right hright left hleft (Ne.symm hne) hmerges

theorem nodup_names_params_iff {function : Callable}
    (h : (function.params.map FormalParameter.name).Nodup) (config : Config) (flavor : Flavor) :
    ((function.method config flavor).params.map Param.name).Nodup ↔
      ∀ left ∈ function.params, ∀ right ∈ function.params, left.name ≠ right.name →
        ¬ Merges left.name right.name := by
  rw [names_params_method, List.nodup_map_iff_inj_on h, injOn_localName_iff]

/-- Under different identifiers, the arguments of a call reach the parameters of their names. -/
theorem supplies_ofCall {function : Callable}
    (hreads : function.reads ⊆ function.params.map FormalParameter.name)
    (hinj : ∀ left ∈ function.params.map FormalParameter.name,
      ∀ right ∈ function.params.map FormalParameter.name,
        localName left = localName right → left = right)
    (hfree : ∀ name ∈ globalNames,
      name ∉ (function.params.map FormalParameter.name).map localName)
    {arguments : List Value} (hlength : arguments.length = function.params.length) :
    Supplies (.ofCall ((function.params.map FormalParameter.name).map localName) arguments)
      (function.passed arguments) function.reads := by
  constructor
  · intro name hname
    have hmem := hreads hname
    obtain ⟨value, hvalue⟩ := Environment.exists_ofCall_eq_some
      (hlength.trans (List.length_map _).symm) hmem
    rw [Environment.ofCall_map arguments fun other hother heq ↦ hinj other hother name hmem heq,
      passed, hvalue, Option.getD_some]
  · exact fun name hname ↦ Environment.ofCall_eq_none (hfree name hname)

/-- The parameters of a method have different names exactly if no two names of formal parameters
merge. Then a call sends the request that the function describes for its arguments, unless a
parameter takes the name of a global value. -/
theorem params_distinct_iff (function : Callable)
    (hnodup : (function.params.map FormalParameter.name).Nodup)
    (hreads : function.reads ⊆ function.params.map FormalParameter.name) (config : Config)
    (flavor : Flavor) :
    (((function.method config flavor).params.map Param.name).Nodup ↔
        ∀ left ∈ function.params, ∀ right ∈ function.params, left.name ≠ right.name →
          ¬ Merges left.name right.name) ∧
      (((function.method config flavor).params.map Param.name).Nodup →
        (∀ name ∈ globalNames, name ∉ (function.method config flavor).params.map Param.name) →
          ∀ (platform : Platform) (arguments : List Value),
            arguments.length = function.params.length →
              (function.method config flavor).send platform arguments =
                function.request platform (function.passed arguments) config) := by
  refine ⟨nodup_names_params_iff hnodup config flavor, ?_⟩
  intro hdistinct hfree platform arguments hlength
  rw [names_params_method] at hdistinct hfree
  have hinj := (List.nodup_map_iff_inj_on hnodup).1 hdistinct
  have hsupplies := supplies_ofCall hreads hinj hfree hlength
  rw [Method.send, names_params_method]
  exact send_statements hsupplies config flavor

end Callable

namespace Operation

variable {scope : Scope} {docs : DocSource} {operation : Operation}

theorem names_params_function {fills : List Binding.Fill} {slots : List Binding.Slot}
    {bound : Bound} (h : Binding.Binds operation fills slots bound) :
    (operation.function scope docs bound).params.map FormalParameter.name =
      operation.parameters.map Parameter.name := by
  rw [params_function h, h.parameters_eq, List.map_map, List.map_map]
  rfl

theorem headers_function {fills : List Binding.Fill} {slots : List Binding.Slot} {bound : Bound}
    (h : Binding.Binds operation fills slots bound) :
    (operation.function scope docs bound).headers =
      (operation.parameters.filter (·.source = .header)).map headerBinding :=
  congrArg (List.map headerBinding)
    (h.ofRole_eq fun _ hslot ↦ h.finalRole_eq_header_iff hslot)

/-- A compiled function is made of its own parameters only. -/
theorem reads_subset_of_compile {function : Callable}
    (h : operation.compile scope docs = .ok (.compiled function)) :
    function.reads ⊆ function.params.map FormalParameter.name := by
  obtain ⟨-, -, bound, hbind, rfl⟩ := compile_eq_compiled_iff.1 h
  obtain ⟨fills, slots, hbinds⟩ := Binding.exists_binds_of_bind hbind
  have hpath := hbinds.fillsPath scope docs
  rw [names_params_function hbinds]
  intro name hname
  simp only [Callable.reads, List.mem_append] at hname
  rcases hname with ((hsegment | hquery) | hheader) | hbody
  · obtain ⟨segment, hsegment, hname⟩ := List.mem_filterMap.1 hsegment
    have hparameter : segment ∈ fills.map Binding.Fill.segment := by
      rw [← hpath.segments_eq]
      refine List.mem_filter.2 ⟨hsegment, ?_⟩
      cases segment with
      | literal => simp [UriSegment.parameter?] at hname
      | parameter => rfl
    obtain ⟨fill, hfill, rfl⟩ := List.mem_map.1 hparameter
    obtain rfl : fill.parameter.name = name := Option.some.inj hname
    exact List.mem_map_of_mem (List.mem_of_getElem? (hpath.parameter_eq fill hfill))
  · obtain ⟨entry, hentry, rfl⟩ := List.mem_map.1 hquery
    have hquery : (operation.function scope docs bound).uri.query = _ := hbinds.query_eq scope docs
    rw [hquery] at hentry
    obtain ⟨pair, hpair, rfl⟩ := List.mem_map.1 hentry
    exact List.mem_map_of_mem (List.of_mem_zip (List.mem_of_mem_filter hpair)).1
  · obtain ⟨header, hmem, rfl⟩ := List.mem_map.1 hheader
    rw [headers_function hbinds] at hmem
    obtain ⟨parameter, hparameter, rfl⟩ := List.mem_map.1 hmem
    exact List.mem_map_of_mem (List.mem_of_mem_filter hparameter)
  · have hbodies := hbinds.ofRole_eq fun slot hslot ↦ hbinds.finalRole_eq_body_iff hslot
    have hlast : ((bound.ofRole .body).getLast?.map Parameter.name) = some name :=
      Option.mem_toList.1 hbody
    obtain ⟨parameter, hparameter, rfl⟩ := Option.map_eq_some_iff.1 hlast
    rw [hbodies] at hparameter
    exact List.mem_map_of_mem (List.mem_of_mem_filter (List.mem_of_getLast? hparameter))

end Operation

/-! ## Names that differ in a hyphen -/

def userSearch : Operation :=
  { name := "Find"
    container := "Shop.UsersController"
    verb := .get
    route := "users"
    parameters :=
      [{ name := "user-id", type := .string, source := .query },
       { name := "userId", type := .string, source := .query }] }

def userSearchFunction : Callable :=
  { name := "Find"
    sourceName := "Find"
    verb := .get
    params :=
      [{ name := "user-id", type := .scalar .string, token := "String", optional := false,
         role := .query },
       { name := "userId", type := .scalar .string, token := "String", optional := false,
         role := .query }]
    returns := .void
    strategy := .nothing
    uri :=
      { segments := [.literal "/users"]
        query :=
          [{ key := "user-id", parameter := "user-id", optional := false, repeated := false },
           { key := "userId", parameter := "userId", optional := false, repeated := false }] }
    body := none
    headers := []
    doc := none }

theorem compile_userSearch :
    userSearch.compile { registry := {}, config := {} } ({} : Docs) =
      .ok (.compiled userSearchFunction) :=
  rfl

theorem merges_userId : Merges "user-id" "userId" :=
  .words (by decide)

/-- Two parameters have different names, but one identifier. -/
theorem not_nodup_params_userSearch :
    (userSearchFunction.params.map FormalParameter.name).Nodup ∧
      ¬ ((userSearchFunction.method {} .fetch).params.map Param.name).Nodup := by
  have hnodup : (userSearchFunction.params.map FormalParameter.name).Nodup := by decide
  have hreads := Operation.reads_subset_of_compile compile_userSearch
  refine ⟨hnodup, fun hdistinct ↦ ?_⟩
  have hdifferent := (userSearchFunction.params_distinct_iff hnodup hreads {} .fetch).1.1 hdistinct
  exact hdifferent _ List.mem_cons_self _ (List.mem_cons_of_mem _ List.mem_cons_self) (by decide)
    merges_userId

/-- Parameters of a compiled function may share their identifier, though no two share their
name. -/
theorem not_forall_params_distinct :
    ¬ ∀ (scope : Scope) (docs : DocSource) (operation : Operation) (function : Callable),
      operation.compile scope docs = .ok (.compiled function) →
        (function.params.map FormalParameter.name).Nodup → ∀ (config : Config) (flavor : Flavor),
          ((function.method config flavor).params.map Param.name).Nodup := by
  intro hall
  have hdistinct := hall _ _ _ _ compile_userSearch (by decide) {} .fetch
  revert hdistinct
  decide

end TypedClient
