import TypedClient.Proofs.Rendering.Request

/-!
# Addresses that methods write

The body of a method writes its search query entry by entry and puts the address
together behind it. Both come out as the function describes them, and everything
else in scope stays as it was.
-/

namespace TypedClient

open TypeScript (Token Expr Stmt Value Platform Environment localName putEntry TemplatePiece)
open TypeScript.Token (eval evalFrom ofCode)
open TypeScript.Waiting (settle operator?)

namespace Callable

section

variable {platform : Platform} {env : Environment} {argument : String → Value}
  {names : List String}

/-! ## The path -/

theorem eval_segmentPiece (h : Supplies env argument names) {function : Callable}
    {segment : UriSegment} (hsegment : ∀ name ∈ segment.parameter?, name ∈ names) :
    (function.segmentPiece segment).eval platform env =
      some (function.segmentText platform argument segment) := by
  cases segment with
  | literal text => simp only [segmentPiece, TemplatePiece.eval, segmentText]
  | parameter name catchAll =>
    have hname : name ∈ names := hsegment name rfl
    have hpiece {value : String} {tokens : List Token} {result : Value}
        (hreads : ReadsAs value tokens) (hstands : StandsFor platform env tokens result) :
        (TemplatePiece.substitution (encodedSegment value catchAll)).eval platform env =
          some (if catchAll then
              "/".intercalate (((result.toText platform).splitOn "/").map platform.encode)
            else platform.encode (result.toText platform)) := by
      rw [TemplatePiece.eval, eval_encodedSegment h hreads hstands]
      rfl
    cases hoptional : function.isOptional name with
    | false =>
      simp only [segmentPiece, segmentText, hoptional, Bool.false_and, Bool.false_eq_true, if_false]
      exact hpiece (readsAs_localName name) (standsFor_localName (h.argument_eq _ hname))
    | true =>
      simp only [segmentPiece, segmentText, hoptional, Bool.true_and, if_true]
      rw [hpiece (readsAs_orEmpty name) (standsFor_orEmpty (h.argument_eq _ hname)), Value.orElse]
      cases (argument name).isAbsent <;> rfl

theorem evalList_segmentPieces (h : Supplies env argument names) {function : Callable}
    {segments : List UriSegment}
    (hsegments : ∀ name ∈ segments.filterMap UriSegment.parameter?, name ∈ names)
    (rest : List TemplatePiece) :
    TemplatePiece.evalList platform env (segments.map function.segmentPiece ++ rest) =
      (TemplatePiece.evalList platform env rest).map
        (String.join (segments.map (function.segmentText platform argument)) ++ ·) := by
  induction segments with
  | nil => simp
  | cons segment segments ih =>
    have hsegment : ∀ name ∈ segment.parameter?, name ∈ names := by
      intro name hname
      refine hsegments name (List.mem_filterMap.2 ⟨segment, List.mem_cons_self, hname⟩)
    have hrest : ∀ name ∈ segments.filterMap UriSegment.parameter?, name ∈ names := by
      intro name hname
      obtain ⟨other, hother, hname⟩ := List.mem_filterMap.1 hname
      exact hsegments name (List.mem_filterMap.2 ⟨other, List.mem_cons_of_mem _ hother, hname⟩)
    rw [List.map_cons, List.cons_append, TemplatePiece.evalList, eval_segmentPiece h hsegment,
      ih hrest]
    cases TemplatePiece.evalList platform env rest with
    | none => rfl
    | some after => simp [String.append_assoc]

theorem eval_searchPiece {content : String} (hsearch : env "search" = some (.text content)) :
    searchPiece.eval platform env = some (if content = "" then "" else "?" ++ content) := by
  have htokens : ofCode "search ? \x60?$\x7bsearch\x7d\x60 : \"\"" =
      [.word "search", .mark '?', .mark '\x60', .chunk "?", .mark '{', .word "search", .mark '}',
        .chunk "", .mark '\x60', .mark ':', .quoted ""] := by decide
  have hlookup := Environment.lookup_eq (by decide) hsearch
  have heval : eval platform env (ofCode "search ? \x60?$\x7bsearch\x7d\x60 : \"\"") =
      some (if (Value.text content).truthy then .text ("?" ++ content) else .text "") := by
    rw [htokens]
    simp [eval, evalFrom, hlookup, settle, operator?, Value.toText]
  rw [searchPiece, TemplatePiece.eval, Expr.eval, heval]
  by_cases hcontent : content = ""
  · subst hcontent
    rfl
  · simp [hcontent, Value.truthy, Value.toText]

/-! ## The query -/

variable (platform) in
theorem execSimple_appendItem (hstring : env "String" = none) {query : List (String × String)}
    (hquery : env "query" = some (.search query)) {item : String}
    (hitem : env "item" = some (.text item)) (key : String) :
    Token.execSimple platform env (appendItem key) =
      some (Function.update env "query" (some (.search (query ++ [(key, item)])))) := by
  have hargument : [Token.word "String", .mark '(', .word "item", .mark ')', .mark ')',
      .mark ';'].dropSuffix? [.mark ')', .mark ';'] =
      some [.word "String", .mark '(', .word "item", .mark ')'] := by decide
  have hlookup := Environment.lookup_eq (by decide) hitem
  have hcall : env.call platform "String" (.text item) = some (.text item) := by
    rw [Environment.call, hstring]
    rfl
  have heval : eval platform env [.word "String", .mark '(', .word "item", .mark ')'] =
      some (.text item) := by
    simp [eval, evalFrom, hlookup, hcall, settle, operator?]
  simp only [appendItem, Token.execSimple, hargument, Option.bind_some, heval, Environment.write,
    hquery]
  rfl

variable (platform) in
/-- A loop leaves all names but two as they were. -/
theorem execLoop_appendItem (key : String) (items : List String) (hstring : env "String" = none)
    {query : List (String × String)} (hquery : env "query" = some (.search query)) :
    ∃ last, Token.execLoop platform "item" (appendItem key) env items = some last ∧
      last "query" = some (.search (query ++ items.map (key, ·))) ∧
        ∀ name, name ≠ "query" → name ≠ "item" → last name = env name := by
  induction items generalizing env query with
  | nil => exact ⟨env, rfl, by simpa using hquery, fun name _ _ ↦ rfl⟩
  | cons item items ih =>
    have hstarted := Function.update_self "item" (some (Value.text item)) env
    have hstep := execSimple_appendItem platform (by simpa using hstring) (by simpa using hquery)
      hstarted key
    have hnext := Function.update_self "query" (some (Value.search (query ++ [(key, item)])))
      (Function.update env "item" (some (.text item)))
    obtain ⟨last, hlast, hquery, hother⟩ := ih (by simpa using hstring) hnext
    refine ⟨last, ?_, ?_, ?_⟩
    · rw [Token.execLoop, hstep]
      exact hlast
    · rw [hquery, List.append_assoc]
      rfl
    · intro name hname hitem
      rw [hother name hname hitem]
      simp [hname, hitem]

theorem exec_loop (h : Supplies env argument names) {value : String} {tokens : List Token}
    {result : Value} (hreads : ReadsAs value tokens)
    (hstands : StandsFor platform env tokens result)
    (hrange : ∀ token ∈ tokens, token ≠ .mark ')') {query : List (String × String)}
    (hquery : env "query" = some (.search query)) (key : String) :
    Token.exec platform env (ofCode ("for (const item of " ++ value ++ ") \x7b\n  query.append(" ++
        (Expr.string key).print ++ ", String(item));\n\x7d")) =
      result.items?.map fun items ↦
        Function.update env "query" (some (.search (query ++ items.map (key, ·)))) := by
  have hsplit : (tokens ++ Token.mark ')' :: Token.mark '{' ::
      (appendItem key ++ [.mark '}'])).takeWhile (· ≠ Token.mark ')') = tokens := by
    rw [List.takeWhile_append_of_pos (by simpa using hrange)]
    simp
  have hbody :
      (appendItem key ++ [Token.mark '}']).dropSuffix? [.mark '}'] = some (appendItem key) :=
    List.dropSuffix?_eq_some_iff.2 ⟨_, rfl, by decide⟩
  rw [ofCode_loop hreads, List.append_assoc]
  simp only [List.cons_append, Token.exec, hsplit, List.drop_left, hstands.eval_eq, hbody]
  cases hitems : result.items? with
  | none => simp [hitems]
  | some items =>
    obtain ⟨last, hlast, hlastQuery, hother⟩ :=
      execLoop_appendItem platform key items (h.free _ (by decide)) hquery
    have hscope : Function.update last "item" (env "item") =
        Function.update env "query" (some (.search (query ++ items.map (key, ·)))) := by
      funext name
      by_cases hitem : name = "item"
      · subst hitem
        simp
      · by_cases hname : name = "query"
        · subst hname
          simp [hlastQuery]
        · simp [hitem, hname, hother name hname hitem]
    simp [hitems, hlast, hscope]

theorem exec_when_presence (h : Supplies env argument names) {name : String}
    (hname : name ∈ names) (stmt : Stmt) :
    (Stmt.when (presence (localName name)) [stmt]).exec platform env =
      if (argument name).isAbsent then some env else stmt.exec platform env := by
  rw [Stmt.exec, eval_presence h hname, Stmt.execList_singleton]
  cases (argument name).isAbsent <;> rfl

variable (platform) in
theorem exec_set (h : Supplies env argument names) {name : String} (hname : name ∈ names)
    {query : List (String × String)} (hquery : env "query" = some (.search query)) (key : String) :
    (Stmt.expr (.invoke (.ident "query") "set" [.string key, asString (localName name)])).exec
        platform env =
      some (Function.update env "query"
        (some (.search (putEntry key ((argument name).toText platform) query)))) := by
  simp only [Expr.invoke, Stmt.exec, Expr.eval_string, eval_asString h hname, Environment.write,
    hquery]
  rfl

theorem exec_queryStatement (h : Supplies env argument names) {entry : QueryEntry}
    (hname : entry.parameter ∈ names) {query : List (String × String)}
    (hquery : env "query" = some (.search query)) :
    (queryStatement entry).exec platform env =
      (writeQuery platform argument query entry).map fun query ↦
        Function.update env "query" (some (.search query)) := by
  have hsame : Function.update env "query" (some (.search query)) = env := by
    rw [← hquery, Function.update_eq_self]
  unfold queryStatement writeQuery
  cases hrepeated : entry.repeated with
  | true =>
    simp only [if_true, Stmt.exec]
    cases hoptional : entry.optional with
    | true =>
      rw [if_pos rfl, exec_loop h (readsAs_orNone _) (standsFor_orNone (h.argument_eq _ hname))
        (by simp) hquery, Value.orElse]
      cases (argument entry.parameter).isAbsent with
      | true => simp [Value.items?, hsame]
      | false => simp [Option.map_map, Function.comp_def]
    | false =>
      rw [if_neg Bool.false_ne_true, exec_loop h (readsAs_localName _)
        (standsFor_localName (h.argument_eq _ hname)) (by simp) hquery]
      simp [Option.map_map, Function.comp_def]
  | false =>
    have hset := exec_set platform h hname hquery entry.key
    cases hoptional : entry.optional with
    | true =>
      simp only [Bool.false_eq_true, if_false, if_true, exec_when_presence h hname, hset]
      cases (argument entry.parameter).isAbsent with
      | true => simp [hsame]
      | false => simp
    | false => simpa using hset

variable (platform) in
/-- Entries are written one after the other. -/
theorem execList_entries (h : Supplies env argument names) {entries : List QueryEntry}
    (hentries : ∀ entry ∈ entries, entry.parameter ∈ names) {query : List (String × String)}
    (hquery : env "query" = some (.search query)) :
    Stmt.execList platform env (entries.map queryStatement) =
      (entries.foldlM (writeQuery platform argument) query).map fun query ↦
        Function.update env "query" (some (.search query)) := by
  induction entries generalizing env query with
  | nil =>
    have hsame : Function.update env "query" (some (.search query)) = env := by
      rw [← hquery, Function.update_eq_self]
    simp [Stmt.execList, hsame]
  | cons entry entries ih =>
    obtain ⟨hentry, hrest⟩ := List.forall_mem_cons.1 hentries
    rw [List.map_cons, Stmt.execList, exec_queryStatement h hentry hquery, List.foldlM_cons]
    cases hwrite : writeQuery platform argument query entry with
    | none => rfl
    | some written =>
      have hnext := ih (h.update "query" (some (.search written)) (by decide)) hrest
        (Function.update_self ..)
      simpa using hnext

/-- The environment in which the search query has been written. -/
def searched (platform : Platform) (env : Environment) (query : List (String × String)) :
    Environment :=
  Function.update (Function.update env "query" (some (.search query))) "search"
    (some (.text (platform.serialize query)))

theorem execList_queryStatements (h : Supplies env argument names) {entries : List QueryEntry}
    (hentries : ∀ entry ∈ entries, entry.parameter ∈ names) (hne : entries ≠ []) :
    Stmt.execList platform env (queryStatements entries) =
      (entries.foldlM (writeQuery platform argument) []).map (searched platform env) := by
  have hempty : (Expr.code "new URLSearchParams()").eval platform env = some (.search []) := by
    have htokens : ofCode "new URLSearchParams()" =
        [.word "new", .word "URLSearchParams", .mark '(', .mark ')'] := by decide
    have hfree : env "URLSearchParams" = none := h.free _ (by decide)
    rw [Expr.eval, htokens]
    simp [eval, evalFrom, hfree, settle]
  have hdeclare := Stmt.exec_declare "query" "query" (by decide) hempty
  have hwritten := execList_entries platform
    (h.update "query" (some (.search [])) (by decide)) hentries
    (Function.update_self ..)
  rw [queryStatements, if_neg hne, List.cons_append, Stmt.execList, hdeclare]
  simp only [Stmt.execList_append, hwritten, Stmt.execList_singleton, Function.update_idem]
  cases entries.foldlM (writeQuery platform argument) [] with
  | none => rfl
  | some query =>
    have hsearch : (Expr.invoke (.ident "query") "toString" []).eval platform
        (Function.update env "query" (some (.search query))) =
          some (.text (platform.serialize query)) := by
      simp [Expr.invoke, Expr.eval, Environment.lookup, Value.toText]
    simp only [Option.map_some, Option.bind_some]
    exact Stmt.exec_declare "search" "search" (by decide) hsearch

/-! ## The address -/

variable (platform) in
theorem eval_urlTemplate (h : Supplies env argument names) {function : Callable}
    (hsegments : ∀ name ∈ function.uri.segments.filterMap UriSegment.parameter?, name ∈ names)
    (query : List (String × String))
    (hsearch : function.uri.query ≠ [] →
      env "search" = some (.text (platform.serialize query))) :
    function.urlTemplate.eval platform env =
      some (.text (function.url platform argument query)) := by
  have hbase : (TemplatePiece.substitution (.member (.ident "this") "baseUrl")).eval platform env =
      some platform.base := by
    simp [TemplatePiece.eval, Expr.eval, Value.toText]
  have hlast : TemplatePiece.evalList platform env
      (if function.uri.query = [] then [] else [searchPiece]) =
        some (if function.uri.query = [] then "" else searchText platform query) := by
    by_cases hnil : function.uri.query = []
    · simp [hnil, TemplatePiece.evalList]
    · simp [hnil, TemplatePiece.evalList, eval_searchPiece (hsearch hnil), searchText]
  rw [urlTemplate, Expr.eval, List.cons_append, TemplatePiece.evalList, hbase,
    evalList_segmentPieces h hsegments, hlast]
  simp [url, String.append_assoc]

theorem reads_segments (function : Callable) :
    function.uri.segments.filterMap UriSegment.parameter? ⊆ function.reads := by
  intro name hname
  simp [reads, List.mem_append, hname]

theorem parameter_mem_reads {function : Callable} {entry : QueryEntry}
    (hentry : entry ∈ function.uri.query) : entry.parameter ∈ function.reads := by
  have hname := List.mem_map_of_mem (f := QueryEntry.parameter) hentry
  simp only [reads, List.mem_append]
  exact .inl (.inl (.inr hname))

/-- The environment in which the address has been put together. -/
def addressed (platform : Platform) (argument : String → Value) (function : Callable)
    (env : Environment) (query : List (String × String)) : Environment :=
  Function.update (if function.uri.query = [] then env else searched platform env query) "url"
    (some (.text (function.url platform argument query)))

theorem Supplies.addressed (h : Supplies env argument names) (platform : Platform)
    (function : Callable) (query : List (String × String)) :
    Supplies (addressed platform argument function env query) argument names := by
  unfold Callable.addressed searched
  split_ifs
  · exact h.update "url" _ (by decide)
  · refine Supplies.update ?_ "url" _ (by decide)
    exact (h.update "query" _ (by decide)).update "search" _ (by decide)

theorem execList_urlStatements (h : Supplies env argument names) {function : Callable}
    (hreads : function.reads ⊆ names) :
    Stmt.execList platform env function.urlStatements =
      (function.uri.query.foldlM (writeQuery platform argument) []).map
        (addressed platform argument function env) := by
  have hsegments : ∀ name ∈ function.uri.segments.filterMap UriSegment.parameter?, name ∈ names :=
    fun name hname ↦ hreads (reads_segments function hname)
  have hentries : ∀ entry ∈ function.uri.query, entry.parameter ∈ names :=
    fun entry hentry ↦ hreads (parameter_mem_reads hentry)
  rw [urlStatements, Stmt.execList_append]
  by_cases hnil : function.uri.query = []
  · have htemplate := eval_urlTemplate platform h hsegments [] (absurd hnil)
    have hdeclare := Stmt.exec_declare "url" "url" (by decide) htemplate
    simp [hnil, queryStatements, Stmt.execList, hdeclare, addressed]
  · rw [execList_queryStatements h hentries hnil]
    cases function.uri.query.foldlM (writeQuery platform argument) [] with
    | none => rfl
    | some query =>
      have hsearched : Supplies (searched platform env query) argument names :=
        (h.update "query" _ (by decide)).update "search" _ (by decide)
      have htemplate := eval_urlTemplate platform hsearched hsegments query
        fun _ ↦ Function.update_self ..
      have hdeclare := Stmt.exec_declare "url" "url" (by decide) htemplate
      simpa [Stmt.execList_singleton, hnil, addressed] using hdeclare

end

end Callable

end TypedClient
