import TypedClient.Proofs.Rendering.Url

/-!
# What a method sends

Behind the address, a body collects its headers and encodes the argument that is
sent as its body. So running a method sends just the request that its function
describes, when the names of the parameters stand for the arguments and none of
them hides a global value.
-/

namespace TypedClient

open TypeScript (Token Expr Stmt Value Platform Environment localName putEntry ObjectEntry)
open TypeScript.Token (eval evalFrom)
open TypeScript.Waiting (settle operator?)

namespace Callable

section

variable {platform : Platform} {env : Environment} {argument : String → Value}
  {names : List String}

/-! ## Headers -/

theorem eval_headerEntry (h : Supplies env argument names) {function : Callable}
    {header : HeaderBinding} (hname : header.parameter ∈ names)
    (halways : function.isConditional header = false) (fields : List (String × String)) :
    (headerEntry header).eval platform env fields =
      some (function.writeHeader platform argument fields header) := by
  simp only [headerEntry, ObjectEntry.eval, eval_asString h hname, writeHeader, halways,
    Bool.false_and, Bool.false_eq_true, if_false]

variable (platform) in
theorem evalList_headerEntries (h : Supplies env argument names) (function : Callable)
    {headers : List HeaderBinding} (hnames : ∀ header ∈ headers, header.parameter ∈ names)
    (halways : ∀ header ∈ headers, function.isConditional header = false)
    (fields : List (String × String)) :
    ObjectEntry.evalList platform env fields (headers.map headerEntry) =
      some (headers.foldl (function.writeHeader platform argument) fields) := by
  induction headers generalizing fields with
  | nil => rfl
  | cons header headers ih =>
    obtain ⟨hname, hnames⟩ := List.forall_mem_cons.1 hnames
    obtain ⟨hfirst, halways⟩ := List.forall_mem_cons.1 halways
    rw [List.map_cons, ObjectEntry.evalList, eval_headerEntry h hname hfirst]
    exact ih hnames halways _

theorem exec_conditionalHeader (h : Supplies env argument names) {function : Callable}
    {header : HeaderBinding} (hname : header.parameter ∈ names)
    (hconditional : function.isConditional header = true) {fields : List (String × String)}
    (hfields : env "headers" = some (.record fields)) :
    (conditionalHeader header).exec platform env = some (Function.update env "headers"
      (some (.record (function.writeHeader platform argument fields header)))) := by
  have hsame : Function.update env "headers" (some (.record fields)) = env := by
    rw [← hfields, Function.update_eq_self]
  have hargument : [Token.word "String", .mark '(', .word (localName header.parameter), .mark ')',
      .mark ';'].dropSuffix? [.mark ';'] =
      some [.word "String", .mark '(', .word (localName header.parameter), .mark ')'] :=
    List.dropSuffix?_eq_some_iff.2 ⟨_, rfl, by decide⟩
  have heval : eval platform env [.word "String", .mark '(', .word (localName header.parameter),
      .mark ')'] = some (.text ((argument header.parameter).toText platform)) := by
    simp [eval, evalFrom, h.lookup_localName hname, h.call_string, settle, operator?]
  have hassign : (Stmt.code ("headers[" ++ (Expr.string header.header).print ++ "] = " ++
      (asString (localName header.parameter)).print ++ ";")).exec platform env =
      some (Function.update env "headers" (some (.record
        (putEntry header.header ((argument header.parameter).toText platform) fields)))) := by
    rw [Stmt.exec, ofCode_assignment]
    simp [Token.exec, Token.execSimple, hargument, heval, Environment.assign, hfields]
  rw [conditionalHeader, exec_when_presence h hname, hassign, writeHeader, hconditional,
    Bool.true_and]
  cases (argument header.parameter).isAbsent with
  | true => simp [hsame]
  | false => simp

variable (platform) in
theorem execList_conditionalHeaders (h : Supplies env argument names) (function : Callable)
    {headers : List HeaderBinding} (hnames : ∀ header ∈ headers, header.parameter ∈ names)
    (hconditional : ∀ header ∈ headers, function.isConditional header = true)
    {fields : List (String × String)} (hfields : env "headers" = some (.record fields)) :
    Stmt.execList platform env (headers.map conditionalHeader) =
      some (Function.update env "headers"
        (some (.record (headers.foldl (function.writeHeader platform argument) fields)))) := by
  induction headers generalizing env fields with
  | nil =>
    have hsame : Function.update env "headers" (some (.record fields)) = env := by
      rw [← hfields, Function.update_eq_self]
    simp [Stmt.execList, hsame]
  | cons header headers ih =>
    obtain ⟨hname, hnames⟩ := List.forall_mem_cons.1 hnames
    obtain ⟨hfirst, hconditional⟩ := List.forall_mem_cons.1 hconditional
    rw [List.map_cons, Stmt.execList, exec_conditionalHeader h hname hfirst hfields]
    have hnext := ih (h.update "headers" (some (.record
        (function.writeHeader platform argument fields header))) (by decide)) hnames hconditional
      (Function.update_self ..)
    simpa using hnext

theorem header_mem_reads {function : Callable} {header : HeaderBinding}
    (hheader : header ∈ function.headers) : header.parameter ∈ function.reads := by
  have hname := List.mem_map_of_mem (f := HeaderBinding.parameter) hheader
  simp only [reads, List.mem_append]
  exact .inl (.inr hname)

variable (platform) in
theorem execList_headerStatements (h : Supplies env argument names) {function : Callable}
    (hreads : function.reads ⊆ names) (contentType : Option String) :
    Stmt.execList platform env (function.headerStatements contentType) =
      some (Function.update env "headers"
        (some (.record (function.headerFields platform argument contentType)))) := by
  have hnames : ∀ header ∈ function.headers, header.parameter ∈ names :=
    fun header hheader ↦ hreads (header_mem_reads hheader)
  have halways : ∀ header ∈ function.headers.filter (not ∘ function.isConditional),
      function.isConditional header = false := by
    simp
  have hconditional : ∀ header ∈ function.headers.filter function.isConditional,
      function.isConditional header = true := by
    simp
  have hobject : (Expr.object (contentType.toList.map (fun type ↦
      .property "Content-Type" (.string type)) ++
        (function.headers.filter (not ∘ function.isConditional)).map headerEntry)).eval
          platform env =
      some (.record ((function.headers.filter (not ∘ function.isConditional)).foldl
        (function.writeHeader platform argument)
          (contentType.toList.map ("Content-Type", ·)))) := by
    have hentries := evalList_headerEntries platform h function
      (fun header hheader ↦ hnames header (List.mem_of_mem_filter hheader)) halways
    cases contentType with
    | none => simp [Expr.eval, hentries]
    | some type =>
      simp [Expr.eval, ObjectEntry.evalList, ObjectEntry.eval, Expr.string, putEntry, hentries]
  have hdeclare := Stmt.exec_declare "headers: Record<string, string>" "headers" (by decide) hobject
  have hdeclared := Function.update_self "headers" (some (Value.record
    ((function.headers.filter (not ∘ function.isConditional)).foldl
      (function.writeHeader platform argument) (contentType.toList.map ("Content-Type", ·))))) env
  have hrest := execList_conditionalHeaders platform (h.update "headers" _ (by decide)) function
    (fun header hheader ↦ hnames header (List.mem_of_mem_filter hheader)) hconditional hdeclared
  rw [headerStatements, headerFields, List.partition_eq_filter_filter]
  simp only [Stmt.execList, hdeclare, hrest, Function.update_idem, List.foldl_append]

end

/-! ## The request -/

theorem snd_encode (serialization : BodySerialization) (value : Expr) :
    (serialization.encode value).2 = serialization.contentType := by
  cases serialization <;> rfl

theorem contentType_encodedBody (config : Config) (function : Callable) :
    (function.encodedBody config).map Prod.snd =
      function.body.map fun _ ↦ config.bodySerialization.contentType := by
  rw [encodedBody, Option.map_map]
  exact congrArg (Option.map · function.body) (funext fun _ ↦ snd_encode _ _)

section

variable {platform : Platform} {env : Environment} {argument : String → Value}
  {names : List String}

variable (platform) in
theorem payload?_encode (h : Supplies env argument names) {name : String} (hname : name ∈ names)
    (serialization : BodySerialization) :
    (serialization.encode (.ident (localName name))).1.payload? platform env =
      some (serialization.payload (argument name)) := by
  have hlookup := h.lookup_localName hname
  have hjson : env "JSON" = none := h.free _ (by decide)
  have hform : env "URLSearchParams" = none := h.free _ (by decide)
  cases serialization with
  | json =>
    simp [BodySerialization.encode, Expr.invoke, Expr.payload?, Expr.eval, hlookup, hjson,
      BodySerialization.payload]
  | formUrlEncoded =>
    simp [BodySerialization.encode, Expr.payload?, Expr.eval, hlookup, hform,
      BodySerialization.payload]

/-- The preparations are done: the address and the headers stand under their names. -/
structure Prepared (platform : Platform) (argument : String → Value) (config : Config)
    (function : Callable) (query : List (String × String)) (env : Environment) : Prop where
  supplies : Supplies env argument function.reads
  url : env "url" = some (.text (function.url platform argument query))
  headers : function.hasHeaders = true → env "headers" =
    some (.record (function.headerFields platform argument
      (function.body.map fun _ ↦ config.bodySerialization.contentType)))

theorem record?_headers {config : Config} {function : Callable} {query : List (String × String)}
    (h : Prepared platform argument config function query env) :
    TypeScript.optional? (Expr.record? platform env)
        (if function.hasHeaders then some (.ident "headers") else none) =
      some (function.sentWith platform argument config query).headers := by
  cases hheaders : function.hasHeaders with
  | false => simp [TypeScript.optional?, sentWith, hheaders]
  | true =>
    have hlookup := Environment.lookup_eq (by decide) (h.headers hheaders)
    simp [TypeScript.optional?, sentWith, hheaders, Expr.record?, Expr.eval, hlookup]

theorem payload?_encodedBody {config : Config} {function : Callable}
    {query : List (String × String)} (h : Prepared platform argument config function query env) :
    TypeScript.optional? (Expr.payload? platform env)
        ((function.encodedBody config).map Prod.fst) =
      some (function.sentWith platform argument config query).body := by
  cases hbody : function.body with
  | none => simp [encodedBody, TypeScript.optional?, sentWith, hbody]
  | some name =>
    have hname : name ∈ function.reads := by simp [reads, hbody]
    have hpayload := payload?_encode platform h.supplies hname config.bodySerialization
    simp [encodedBody, TypeScript.optional?, sentWith, hbody, hpayload]

/-- Options with the right properties send the request of the function. -/
theorem sentBy_eq {config : Config} {function : Callable} {query : List (String × String)}
    (h : Prepared platform argument config function query env) {bodyKey : String}
    {options : List ObjectEntry}
    (hmethod : TypeScript.property? "method" options = some (.string function.verb.name))
    (hheaders : TypeScript.property? "headers" options =
      if function.hasHeaders then some (.ident "headers") else none)
    (hbody : TypeScript.property? bodyKey options = (function.encodedBody config).map Prod.fst) :
    TypeScript.sentBy platform env (.ident "url") bodyKey options =
      some (function.sentWith platform argument config query) := by
  have hlookup := Environment.lookup_eq (by decide) h.url
  have hurl : (Expr.ident "url").text? platform env =
      some (function.url platform argument query) := by
    rw [Expr.text?, Expr.eval, hlookup]
  simp only [TypeScript.sentBy, hurl, hmethod, hheaders, hbody, record?_headers h,
    payload?_encodedBody h]
  rfl

theorem property?_options (request : Request) {bodyKey : String} (hbodyKey : bodyKey ≠ "method")
    (hheadersKey : bodyKey ≠ "headers") (rest : List ObjectEntry)
    (hrest : ∀ key ∈ ["method", "headers", bodyKey], TypeScript.property? key rest = none) :
    TypeScript.property? "method" (request.options bodyKey ++ rest) =
        some (.string request.method) ∧
      TypeScript.property? "headers" (request.options bodyKey ++ rest) =
          (if request.hasHeaders then some (.ident "headers") else none) ∧
        TypeScript.property? bodyKey (request.options bodyKey ++ rest) = request.body := by
  obtain ⟨hmethod, hheaders, hbody⟩ : TypeScript.property? "method" rest = none ∧
      TypeScript.property? "headers" rest = none ∧ TypeScript.property? bodyKey rest = none := by
    simpa using hrest
  obtain ⟨method, hasHeaders, body⟩ := request
  cases hasHeaders <;> cases body <;>
    simp [Request.options, TypeScript.property?, hmethod, hheaders, hbody, hbodyKey, hheadersKey,
      hbodyKey.symm, hheadersKey.symm]

theorem property?_url_options (request : Request) (rest : List ObjectEntry)
    (hrest : TypeScript.property? "url" rest = none) :
    TypeScript.property? "url" (request.options "data" ++ rest) = none := by
  obtain ⟨method, hasHeaders, body⟩ := request
  cases hasHeaders <;> cases body <;> simp [Request.options, TypeScript.property?, hrest]

theorem property?_responseType (strategy : ReturnStrategy) {key : String}
    (hkey : key ≠ "responseType") :
    TypeScript.property? key ((Request.responseType? strategy).toList.map fun type ↦
      .property "responseType" (.string type)) = none := by
  cases Request.responseType? strategy with
  | none => rfl
  | some type => simp [TypeScript.property?, hkey.symm]

/-- What the statements in front of a request have prepared. -/
def toRequest (config : Config) (function : Callable) : Request :=
  { method := function.verb.name
    hasHeaders := function.hasHeaders
    body := (function.encodedBody config).map Prod.fst }

/-- Both flavors send what has been prepared. -/
theorem send_prepared {config : Config} {function : Callable} {query : List (String × String)}
    (h : Prepared platform argument config function query env) (flavor : Flavor)
    (strategy : ReturnStrategy) (rest : List Stmt) :
    Stmt.send platform env (flavor.send (function.toRequest config) strategy ++ rest) =
      some (function.sentWith platform argument config query) := by
  cases flavor with
  | fetch =>
    have hfree : env "fetch" = none := h.supplies.free _ (by decide)
    have hbodyKey : "body" ≠ "method" ∧ "body" ≠ "headers" := by decide
    obtain ⟨hmethod, hheaders, hbody⟩ := property?_options (function.toRequest config) hbodyKey.1
      hbodyKey.2 [] (by simp [TypeScript.property?])
    rw [List.append_nil] at hmethod hheaders hbody
    rw [Flavor.send, Request.sendFetch, Request.constRes, List.cons_append, Stmt.send, Expr.sent?,
      if_pos ⟨rfl, hfree⟩]
    exact sentBy_eq h hmethod hheaders hbody
  | axios =>
    have hbodyKey : "data" ≠ "method" ∧ "data" ≠ "headers" := by decide
    have hkeys : ∀ key ∈ ["method", "headers", "data"], key ≠ "responseType" := by decide
    obtain ⟨hmethod, hheaders, hbody⟩ := property?_options (function.toRequest config) hbodyKey.1
      hbodyKey.2 _ fun key hkey ↦ property?_responseType strategy (hkeys key hkey)
    have hurl := property?_url_options (function.toRequest config) _
      (property?_responseType strategy (by decide : "url" ≠ "responseType"))
    rw [Flavor.send, Request.sendAxios, Request.constRes, List.cons_append, Stmt.send, Expr.invoke,
      Expr.sent?, if_pos ⟨rfl, rfl, rfl⟩]
    simp only [List.cons_append, TypeScript.property?, hurl, if_true, Option.none_or,
      Option.bind_some]
    have hskip {key : String} {found : Option Expr} {rest : List ObjectEntry} (hkey : "url" ≠ key)
        (hfound : TypeScript.property? key rest = found) :
        TypeScript.property? key (.property "url" (.ident "url") :: rest) = found := by
      rw [TypeScript.property?, hfound, if_neg hkey, Option.or_none]
    exact sentBy_eq h (hskip (by decide) hmethod) (hskip (by decide) hheaders)
      (hskip (by decide) hbody)

theorem awaits_urlStatements (function : Callable) :
    ∀ stmt ∈ function.urlStatements, stmt.awaits = false := by
  have hquery (entry : QueryEntry) : (queryStatement entry).awaits = false := by
    unfold queryStatement
    cases entry.repeated <;> cases entry.optional <;> rfl
  have hentries : ∀ stmt ∈ queryStatements function.uri.query, stmt.awaits = false := by
    unfold queryStatements
    split_ifs
    · simp
    · intro stmt hstmt
      simp only [List.cons_append, List.mem_cons, List.mem_append, List.mem_map,
        List.not_mem_nil, or_false] at hstmt
      rcases hstmt with rfl | ⟨entry, -, rfl⟩ | rfl
      · rfl
      · exact hquery entry
      · rfl
  exact List.forall_mem_append.2 ⟨hentries, by simp [urlTemplate, Stmt.awaits]⟩

theorem awaits_headerStatements (function : Callable) (contentType : Option String) :
    ∀ stmt ∈ function.headerStatements contentType, stmt.awaits = false := by
  intro stmt hstmt
  simp only [headerStatements, List.mem_cons, List.mem_map] at hstmt
  rcases hstmt with rfl | ⟨header, -, rfl⟩
  · rfl
  · rfl

/-- The generated method sends the request that its function describes. -/
theorem send_statements {function : Callable} (h : Supplies env argument function.reads)
    (config : Config) (flavor : Flavor) :
    Stmt.send platform env (function.statements config flavor) =
      function.request platform argument config := by
  have hstatements : function.statements config flavor = function.urlStatements ++
      ((if function.hasHeaders then
        function.headerStatements ((function.encodedBody config).map Prod.snd) else []) ++
        (flavor.send (function.toRequest config) function.strategy ++
          flavor.readBack function.strategy (.ofReturn function.strategy function.returns))) := by
    simp only [statements, toRequest, List.append_assoc]
  rw [hstatements, Stmt.send_append (awaits_urlStatements function),
    execList_urlStatements h (List.Subset.refl _), request]
  cases function.uri.query.foldlM (writeQuery platform argument) [] with
  | none => rfl
  | some query =>
    have hsupplies := h.addressed platform function query
    have hurl : addressed platform argument function env query "url" =
        some (.text (function.url platform argument query)) := Function.update_self ..
    simp only [Option.map_some, Option.bind_some]
    cases hheaders : function.hasHeaders with
    | false =>
      have hprepared : Prepared platform argument config function query
          (addressed platform argument function env query) :=
        { supplies := hsupplies
          url := hurl
          headers := fun htrue ↦ by simp [hheaders] at htrue }
      exact send_prepared hprepared flavor _ _
    | true =>
      have hheaderStatements := execList_headerStatements platform hsupplies
        (List.Subset.refl function.reads) ((function.encodedBody config).map Prod.snd)
      rw [if_pos rfl, Stmt.send_append (awaits_headerStatements function _), hheaderStatements,
        Option.bind_some]
      refine send_prepared ?_ flavor _ _
      exact
        { supplies := hsupplies.update "headers" _ (by decide)
          url := by simpa using hurl
          headers := fun _ ↦ by simp [contentType_encodedBody] }

end

end Callable

end TypedClient
