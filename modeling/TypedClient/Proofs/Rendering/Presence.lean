import TypedClient.Proofs.Rendering.Parameters

/-!
# Arguments that may be absent

An argument that is undefined or null is left out of the query if its parameter
is optional or its type is nullable. A header is left out only if the parameter,
or the first one of its name, is optional; a nullable header that is not optional
is sent as the text of its absent argument. Everything else is written, with the
text of its argument or once for each of its elements.
-/

namespace TypedClient

open TypeScript (Value Platform Environment Sent Stmt putEntry)

namespace TypeScript

theorem mem_keys_putEntry {key content other : String} {entries : List (String × String)} :
    other ∈ (putEntry key content entries).map Prod.fst ↔
      other = key ∨ other ∈ entries.map Prod.fst := by
  induction entries with
  | nil => simp [putEntry]
  | cons entry entries ih =>
    obtain ⟨name, old⟩ := entry
    rw [putEntry]
    by_cases hname : name = key
    · rw [if_pos hname]
      have hkeys : (entries.filter (·.1 ≠ key)).map Prod.fst =
          (entries.map Prod.fst).filter (· ≠ key) := by
        rw [List.filter_map]
        rfl
      by_cases hother : other = key
      · simp [hother]
      · simp only [List.map_cons, List.mem_cons, hkeys, List.mem_filter]
        simp [hother, hname]
    · rw [if_neg hname]
      simp only [List.map_cons, List.mem_cons, ih]
      exact or_left_comm

end TypeScript

namespace Parameter

variable (platform : Platform) (argument : String → Value)

/-- The search query behind a parameter. -/
def writeQuery (query : List (String × String)) (parameter : Parameter) :
    Option (List (String × String)) :=
  let value := argument parameter.name
  if (parameter.optional || parameter.type.isNullable) && value.isAbsent then some query
  else if parameter.type.isCollection then
    value.items?.map fun items ↦ query ++ items.map (parameter.name, ·)
  else some (putEntry parameter.name (value.toText platform) query)

/-- The headers behind a parameter, which is left out if it is absent and may be. -/
def writeHeader (mayBeAbsent : Bool) (headers : List (String × String)) (parameter : Parameter) :
    List (String × String) :=
  let value := argument parameter.name
  if mayBeAbsent && value.isAbsent then headers
  else putEntry parameter.name (value.toText platform) headers

/-- The parameter has an entry in the query. -/
def isQueried (parameter : Parameter) (value : Value) : Bool :=
  !((parameter.optional || parameter.type.isNullable) && value.isAbsent) &&
    !(parameter.type.isCollection && value.items? = some [])

variable {platform argument}

theorem mem_keys_writeQuery {query written : List (String × String)} {parameter : Parameter}
    (h : parameter.writeQuery platform argument query = some written) {key : String} :
    key ∈ written.map Prod.fst ↔ key ∈ query.map Prod.fst ∨
      parameter.name = key ∧ parameter.isQueried (argument parameter.name) = true := by
  unfold writeQuery at h
  unfold isQueried
  cases hmissing : (parameter.optional || parameter.type.isNullable) &&
      (argument parameter.name).isAbsent with
  | true =>
    obtain rfl : query = written := by simpa [hmissing] using h
    simp
  | false =>
    cases hcollection : parameter.type.isCollection with
    | true =>
      obtain ⟨items, hitems, rfl⟩ : ∃ items, (argument parameter.name).items? = some items ∧
          query ++ items.map (parameter.name, ·) = written := by
        simpa [hmissing, hcollection] using h
      cases items with
      | nil => simp [hitems]
      | cons item items =>
        have hkeys : ((item :: items).map (parameter.name, ·)).map Prod.fst =
            List.replicate (items.length + 1) parameter.name := by
          rw [List.map_map]
          exact List.map_const
        rw [List.map_append, List.mem_append, hkeys, List.mem_replicate]
        simp [hitems, eq_comm]
    | false =>
      obtain rfl : putEntry parameter.name ((argument parameter.name).toText platform) query =
          written := by
        simpa [hmissing, hcollection] using h
      simp [TypeScript.mem_keys_putEntry, or_comm, eq_comm]

theorem mem_keys_foldlM_writeQuery {parameters : List Parameter}
    {query written : List (String × String)}
    (h : parameters.foldlM (writeQuery platform argument) query = some written) {key : String} :
    key ∈ written.map Prod.fst ↔ key ∈ query.map Prod.fst ∨ ∃ parameter ∈ parameters,
      parameter.name = key ∧ parameter.isQueried (argument parameter.name) = true := by
  induction parameters generalizing query with
  | nil =>
    obtain rfl : query = written := by simpa using h
    simp
  | cons parameter parameters ih =>
    rw [List.foldlM_cons, Option.bind_eq_bind, Option.bind_eq_some_iff] at h
    obtain ⟨next, hnext, hrest⟩ := h
    rw [ih hrest, mem_keys_writeQuery hnext, or_assoc, List.exists_mem_cons_iff]

theorem mem_keys_writeHeader {mayBeAbsent : Bool} {fields : List (String × String)}
    {parameter : Parameter} {key : String} :
    key ∈ (parameter.writeHeader platform argument mayBeAbsent fields).map Prod.fst ↔
      key ∈ fields.map Prod.fst ∨
        parameter.name = key ∧ (mayBeAbsent && (argument parameter.name).isAbsent) = false := by
  cases habsent : mayBeAbsent && (argument parameter.name).isAbsent with
  | true => simp only [writeHeader, habsent, if_true, Bool.true_eq_false, and_false, or_false]
  | false =>
    simp only [writeHeader, habsent, Bool.false_eq_true, if_false, TypeScript.mem_keys_putEntry]
    rw [and_true, or_comm, @eq_comm _ key]

theorem mem_keys_foldl_writeHeader (mayBeAbsent : Parameter → Bool) {parameters : List Parameter}
    {fields : List (String × String)} {key : String} :
    key ∈ (parameters.foldl (fun fields parameter ↦ parameter.writeHeader platform argument
        (mayBeAbsent parameter) fields) fields).map Prod.fst ↔
      key ∈ fields.map Prod.fst ∨ ∃ parameter ∈ parameters, parameter.name = key ∧
        (mayBeAbsent parameter && (argument parameter.name).isAbsent) = false := by
  induction parameters generalizing fields with
  | nil => simp
  | cons parameter parameters ih =>
    rw [List.foldl_cons, ih, mem_keys_writeHeader, or_assoc, List.exists_mem_cons_iff]

end Parameter

namespace Operation

/-- The parameters that a function sends in its query. -/
def queried (operation : Operation) (function : Callable) : List Parameter :=
  ((operation.parameters.zip function.params).filter (·.2.role = .query)).map Prod.fst

/-- The parameter or the first one of its name is optional. -/
def mayLeaveOut (operation : Operation) (parameter : Parameter) : Bool :=
  parameter.optional ||
    (operation.parameters.find? (·.name = parameter.name)).any Parameter.optional

section

variable (platform : Platform) (argument : String → Value)

/-- The headers of a request. Those that may be left out come last. -/
def headerFields (operation : Operation) (contentType : Option String) : List (String × String) :=
  let headers := operation.parameters.filter (·.source = .header)
  (headers.filter (not ∘ operation.mayLeaveOut) ++ headers.filter operation.mayLeaveOut).foldl
    (fun fields parameter ↦
      parameter.writeHeader platform argument (operation.mayLeaveOut parameter) fields)
    (contentType.toList.map ("Content-Type", ·))

/-- The request of an operation that is sent with the given search query. -/
def sentWith (config : Config) (operation : Operation) (function : Callable)
    (query : List (String × String)) : Sent :=
  { function.sentWith platform argument config query with
    headers := if function.hasHeaders then
        some (operation.headerFields platform argument
          (function.body.map fun _ ↦ config.bodySerialization.contentType))
      else none }

end

variable {scope : Scope} {docs : DocSource} {operation : Operation} {platform : Platform}
  {argument : String → Value} {fills : List Binding.Fill} {slots : List Binding.Slot}
  {bound : Bound}

theorem query_function (h : Binding.Binds operation fills slots bound) :
    (operation.function scope docs bound).uri.query =
      (operation.queried (operation.function scope docs bound)).map Binding.queryEntry := by
  have hquery : (operation.function scope docs bound).uri.query = _ := h.query_eq scope docs
  rw [hquery, queried, List.map_map]
  rfl

theorem isOptional_function (h : Binding.Binds operation fills slots bound) (name : String) :
    (operation.function scope docs bound).isOptional name =
      (operation.parameters.find? (·.name = name)).any Parameter.optional := by
  rw [Callable.isOptional, Callable.param?, params_function h, h.parameters_eq, List.find?_map,
    List.find?_map, Option.any_map, Option.any_map]
  rfl

theorem isConditional_headerBinding (h : Binding.Binds operation fills slots bound)
    (parameter : Parameter) :
    (operation.function scope docs bound).isConditional (headerBinding parameter) =
      operation.mayLeaveOut parameter := by
  rw [Callable.isConditional, mayLeaveOut]
  exact congrArg (parameter.optional || ·) (isOptional_function h parameter.name)

theorem headerFields_function (h : Binding.Binds operation fills slots bound)
    (contentType : Option String) :
    (operation.function scope docs bound).headerFields platform argument contentType =
      operation.headerFields platform argument contentType := by
  have hconditional : (operation.function scope docs bound).isConditional ∘ headerBinding =
      operation.mayLeaveOut := funext (isConditional_headerBinding h)
  have hwrite (fields : List (String × String)) (parameter : Parameter) :
      (operation.function scope docs bound).writeHeader platform argument fields
          (headerBinding parameter) =
        parameter.writeHeader platform argument (operation.mayLeaveOut parameter) fields := by
    rw [Callable.writeHeader, Parameter.writeHeader, isConditional_headerBinding h]
    rfl
  rw [Callable.headerFields, headerFields, headers_function h, List.partition_eq_filter_filter]
  simp only [List.filter_map, ← List.map_append, List.foldl_map, hwrite, ← hconditional,
    Function.comp_assoc]

theorem mem_keys_headerFields {contentType : Option String} {key : String} :
    key ∈ (operation.headerFields platform argument contentType).map Prod.fst ↔
      (contentType.isSome = true ∧ key = "Content-Type") ∨
        ∃ parameter ∈ operation.parameters, parameter.source = .header ∧ parameter.name = key ∧
          (operation.mayLeaveOut parameter && (argument parameter.name).isAbsent) = false := by
  have hcontentType : key ∈ (contentType.toList.map ("Content-Type", ·)).map Prod.fst ↔
      contentType.isSome = true ∧ key = "Content-Type" := by
    cases contentType <;> simp
  have hheaders (parameter : Parameter) : parameter ∈
      (operation.parameters.filter (·.source = .header)).filter (not ∘ operation.mayLeaveOut) ++
        (operation.parameters.filter (·.source = .header)).filter operation.mayLeaveOut ↔
      parameter ∈ operation.parameters ∧ parameter.source = .header := by
    rw [List.mem_append, List.mem_filter, List.mem_filter, List.mem_filter]
    cases hleave : operation.mayLeaveOut parameter <;> simp [hleave]
  rw [headerFields, Parameter.mem_keys_foldl_writeHeader, hcontentType]
  simp only [hheaders, and_assoc]

/-- What becomes of the arguments of an operation when its method is run. -/
structure SendsArguments (platform : Platform) (argument : String → Value) (config : Config)
    (operation : Operation) (function : Callable) (sent : Option Sent) : Prop where
  /-- Each argument is written as its parameter says, one after the other. -/
  sent_eq : sent = ((operation.queried function).foldlM
    (Parameter.writeQuery platform argument) []).map
      (operation.sentWith platform argument config function)
  /-- The query has an entry for a parameter unless its argument is absent and may be, or has no
  element. -/
  query_keys : ∀ query, (operation.queried function).foldlM
      (Parameter.writeQuery platform argument) [] = some query →
    ∀ key, key ∈ query.map Prod.fst ↔ ∃ parameter ∈ operation.queried function,
      parameter.name = key ∧ parameter.isQueried (argument parameter.name) = true
  /-- There is a header for a parameter unless its argument is absent and the parameter, or the
  first one of its name, is optional. -/
  header_keys : ∀ request fields, sent = some request → request.headers = some fields →
    ∀ key, key ∈ fields.map Prod.fst ↔
      (function.body.isSome = true ∧ key = "Content-Type") ∨
        ∃ parameter ∈ operation.parameters, parameter.source = .header ∧ parameter.name = key ∧
          (operation.mayLeaveOut parameter && (argument parameter.name).isAbsent) = false

/-- The method of a compiled operation sends what the operation says about each argument. -/
theorem sends_arguments {function : Callable}
    (h : operation.compile scope docs = .ok (.compiled function)) (config : Config)
    (flavor : Flavor) {env : Environment}
    (hsupplies : Callable.Supplies env argument function.reads) :
    SendsArguments platform argument config operation function
      (Stmt.send platform env (function.method config flavor).body) := by
  have hsent : Stmt.send platform env (function.method config flavor).body =
      ((operation.queried function).foldlM (Parameter.writeQuery platform argument) []).map
        (operation.sentWith platform argument config function) := by
    have hsend := @Callable.send_statements platform _ _ _ hsupplies config flavor
    obtain ⟨-, -, bound, hbind, rfl⟩ := compile_eq_compiled_iff.1 h
    obtain ⟨fills, slots, hbinds⟩ := Binding.exists_binds_of_bind hbind
    have hwrite : (fun query parameter ↦
        Callable.writeQuery platform argument query (Binding.queryEntry parameter)) =
          Parameter.writeQuery platform argument := rfl
    have hwith : (operation.function scope docs bound).sentWith platform argument config =
        operation.sentWith platform argument config (operation.function scope docs bound) := by
      funext query
      rw [sentWith, ← headerFields_function hbinds]
      rfl
    rw [Callable.method, hsend, Callable.request, query_function hbinds, List.foldlM_map, hwrite,
      hwith]
  refine { sent_eq := hsent, query_keys := ?_, header_keys := ?_ }
  · intro query hquery key
    rw [Parameter.mem_keys_foldlM_writeQuery hquery]
    simp
  · intro request fields hrequest hfields key
    rw [hsent, Option.map_eq_some_iff] at hrequest
    obtain ⟨query, -, rfl⟩ := hrequest
    cases hheaders : function.hasHeaders with
    | false => simp [sentWith, hheaders] at hfields
    | true =>
      obtain rfl : operation.headerFields platform argument
          (function.body.map fun _ ↦ config.bodySerialization.contentType) = fields := by
        simpa [sentWith, hheaders] using hfields
      rw [mem_keys_headerFields, Option.isSome_map]

/-! ## A nullable header -/

def tenantSearch : Operation :=
  { name := "Find"
    container := "Shop.ItemsController"
    verb := .get
    route := "items"
    parameters :=
      [{ name := "X-Tenant"
         type := { name := "System.Nullable\x601", kind := .generic .nullable [.string] }
         source := .header }] }

def tenantSearchFunction : Callable :=
  { name := "Find"
    sourceName := "Find"
    verb := .get
    params :=
      [{ name := "X-Tenant", type := .nullable (.scalar .string), token := "String",
         optional := false, role := .header }]
    returns := .void
    strategy := .nothing
    uri := { segments := [.literal "/items"] }
    body := none
    headers := [{ header := "X-Tenant", parameter := "X-Tenant", optional := false }]
    doc := none }

theorem compile_tenantSearch :
    tenantSearch.compile { registry := {}, config := {} } ({} : Docs) =
      .ok (.compiled tenantSearchFunction) :=
  rfl

/-- A call without a tenant. -/
def noTenant : Environment :=
  .ofCall ["xTenant"] [.null]

theorem supplies_noTenant :
    Callable.Supplies noTenant (fun _ ↦ .null) tenantSearchFunction.reads where
  argument_eq := by decide
  free := by decide

def plainPlatform : Platform :=
  { encode := id, serialize := fun _ ↦ "", base := "" }

/-- The method sends the text of null. -/
theorem sent_tenantSearch :
    Stmt.send plainPlatform noTenant (tenantSearchFunction.method {} .fetch).body =
      some { method := "GET", url := "/items", headers := some [("X-Tenant", "null")],
             body := none } := by
  have hsends := @sends_arguments _ _ _ plainPlatform _ _ compile_tenantSearch {} .fetch _
    supplies_noTenant
  rw [hsends.sent_eq]
  rfl

/-- The argument of a nullable header may be sent though it is absent. -/
theorem not_forall_absent_left_out :
    ¬ ∀ (scope : Scope) (docs : DocSource) (operation : Operation) (function : Callable),
      operation.compile scope docs = .ok (.compiled function) →
        ∀ (config : Config) (flavor : Flavor) (platform : Platform) (env : Environment)
          (argument : String → Value), Callable.Supplies env argument function.reads →
          ∀ parameter ∈ operation.parameters, parameter.source = .header →
            parameter.optional = true ∨ parameter.type.isNullable = true →
              (argument parameter.name).isAbsent = true →
                ∀ request fields, Stmt.send platform env (function.method config flavor).body =
                  some request → request.headers = some fields →
                    parameter.name ∉ fields.map Prod.fst := by
  intro hall
  have hsend : Stmt.send plainPlatform noTenant (tenantSearchFunction.method {} .fetch).body =
      some { method := "GET", url := "/items", headers := some [("X-Tenant", "null")],
             body := none } :=
    (Callable.send_statements supplies_noTenant {} .fetch).trans rfl
  exact hall _ _ _ _ compile_tenantSearch {} .fetch plainPlatform noTenant _ supplies_noTenant _
    List.mem_cons_self rfl (.inr rfl) rfl _ _ hsend rfl List.mem_cons_self

end Operation

end TypedClient
