import TypedClient.Proofs.Rendering.Sending
import TypedClient.Proofs.TypeScript.Reference

/-!
# Names in the body of a method

The body of a method refers to the parameters that its request is made of, to
names that it declares, and to global values. Most of these values start with a
capital. The others are spelled like a parameter: `fetch`, `encodeURIComponent`
and `undefined`, each of them only where the body uses it.
-/

namespace TypedClient

open TypeScript (Token Expr Stmt Ty TemplatePiece ObjectEntry localName methodLocals
  declaredName isIdentifier_localName isReserved)
open TypeScript.Token (namesFrom ofCode isName)

namespace Callable

/-- Names in the code of a body that no parameter has. -/
def fixedNames : List String :=
  methodLocals ++ ["String", "JSON", "URLSearchParams", "ApiError"]

theorem localName_not_mem_fixedNames (name : String) : localName name ∉ fixedNames := by
  have hcapitals : ∀ fixed ∈ ["String", "JSON", "URLSearchParams", "ApiError"],
      fixed.toList.head?.any Char.isUpper = true := by decide
  rw [fixedNames, List.mem_append, not_or]
  refine ⟨TypeScript.localName_not_mem_methodLocals name, fun hmem ↦ ?_⟩
  obtain ⟨c, hc, hupper⟩ := (Option.any_eq_true _ _).1 (hcapitals _ hmem)
  rw [TypeScript.head_localName name c hc] at hupper
  exact Bool.false_ne_true hupper

theorem ne_of_fixed {name fixed : String} (hname : name ∉ fixedNames)
    (hfixed : fixed ∈ fixedNames) : name ≠ fixed :=
  (ne_of_mem_of_not_mem hfixed hname).symm

/-! ## Names in the code around parameters -/

theorem isName_localName (name : String) : isName (localName name) = true :=
  Token.isName_of_isIdentifier (isIdentifier_localName name)

theorem isReserved_localName (name : String) : isReserved (localName name) = false := by
  have hunreserved := (isIdentifier_localName name).unreserved
  rwa [String.ofList_toList] at hunreserved

theorem names_asString (name : String) :
    (asString (localName name)).names = ["String", localName name] := by
  have hstring : isReserved "String" = false := by decide
  simp [asString, Expr.names, Expr.namesList, isReserved_localName, hstring]

theorem names_presence (name : String) :
    (presence (localName name)).names = [localName name, "undefined", localName name] := by
  have hnull : isReserved "null" = true := by decide
  have hundefined : isName "undefined" = true := by decide
  rw [presence, Expr.names, ofCode_presence, Token.names]
  simp [isName_localName, hundefined, hnull]

/-- The tokens of an operand refer to one name, and they declare none. -/
structure Refers (ident : String) (tokens : List Token) : Prop where
  names_eq : ∀ rest,
    namesFrom .operand (tokens ++ .mark ')' :: rest) = ident :: namesFrom .operand rest
  declared_eq : ∀ rest,
    Token.declared (.word "of" :: tokens ++ .mark ')' :: rest) = Token.declared rest

theorem refers_localName (name : String) : Refers (localName name) [.word (localName name)] where
  names_eq := fun rest ↦ by simp [isName_localName]
  declared_eq := fun rest ↦ by simp [Token.declared]

theorem refers_orEmpty (name : String) :
    Refers (localName name) [.word (localName name), .mark '?', .mark '?', .quoted ""] where
  names_eq := fun rest ↦ by simp [isName_localName]
  declared_eq := fun rest ↦ by simp [Token.declared]

theorem refers_orNone (name : String) :
    Refers (localName name)
      [.word (localName name), .mark '?', .mark '?', .mark '[', .mark ']'] where
  names_eq := fun rest ↦ by simp [isName_localName]
  declared_eq := fun rest ↦ by simp [Token.declared]

theorem names_encodedSegment {ident value : String} {tokens : List Token}
    (hreads : ReadsAs value tokens) (hrefers : Refers ident tokens) (catchAll : Bool) :
    (encodedSegment value catchAll).names =
      if catchAll then ["String", ident, "encodeURIComponent"]
      else ["encodeURIComponent", "String", ident] := by
  have hstring : isName "String" = true := by decide
  have hencode : isName "encodeURIComponent" = true := by decide
  cases catchAll with
  | true =>
    have hparts : encodedParts = .mark ')' :: encodedParts.tail := rfl
    have hmap : namesFrom .operand encodedParts.tail = ["encodeURIComponent"] := by decide
    rw [encodedSegment, if_pos rfl, Expr.names, ofCode_encodedParts hreads, hparts, Token.names]
    simp [hstring, hrefers.names_eq, hmap]
  | false =>
    rw [encodedSegment, if_neg Bool.false_ne_true, Expr.names, ofCode_encoded hreads, Token.names]
    simp [hstring, hencode, hrefers.names_eq]

theorem names_loop {ident value : String} {tokens : List Token} (hreads : ReadsAs value tokens)
    (hrefers : Refers ident tokens) (key : String) :
    (Stmt.code ("for (const item of " ++ value ++ ") \x7b\n  query.append(" ++
        (Expr.string key).print ++ ", String(item));\n\x7d")).names =
      ["item", ident, "query", "String", "item"] := by
  have hfor : isReserved "for" = true ∧ isReserved "const" = true := by decide
  have hnames : isName "item" = true ∧ isName "query" = true ∧ isName "String" = true := by decide
  rw [Stmt.names, ofCode_loop hreads, Token.names]
  simp [hfor, hnames, hrefers.names_eq, appendItem]

theorem names_assignment (key name : String) :
    (Stmt.code ("headers[" ++ (Expr.string key).print ++ "] = " ++
      (asString (localName name)).print ++ ";")).names = ["headers", "String", localName name] := by
  have hnames : isName "headers" = true ∧ isName "String" = true := by decide
  rw [Stmt.names, ofCode_assignment, Token.names]
  simp [hnames, isName_localName]

/-! ## Names in a body -/

section

variable {name : String} (hname : name ∉ fixedNames)

include hname

theorem mem_names_segmentPiece_iff {function : Callable} {segment : UriSegment} :
    name ∈ (function.segmentPiece segment).names ↔
      ∃ parameter ∈ segment.parameter?,
        name = localName parameter ∨ name = "encodeURIComponent" := by
  have hstring : name ≠ "String" := ne_of_fixed hname (by decide)
  cases segment with
  | literal text => simp [segmentPiece, TemplatePiece.names, UriSegment.parameter?]
  | parameter other catchAll =>
    have hnames : (function.segmentPiece (.parameter other catchAll)).names =
        if catchAll then ["String", localName other, "encodeURIComponent"]
        else ["encodeURIComponent", "String", localName other] := by
      rw [segmentPiece, TemplatePiece.names]
      cases function.isOptional other with
      | true => exact names_encodedSegment (readsAs_orEmpty other) (refers_orEmpty other) catchAll
      | false =>
        exact names_encodedSegment (readsAs_localName other) (refers_localName other) catchAll
    rw [hnames]
    cases catchAll <;> simp [hstring, UriSegment.parameter?, or_comm]

theorem mem_names_queryStatement_iff {entry : QueryEntry} :
    name ∈ (queryStatement entry).names ↔ name = localName entry.parameter ∨
      (entry.optional = true ∧ entry.repeated = false) ∧ name = "undefined" := by
  have hstring : name ≠ "String" := ne_of_fixed hname (by decide)
  have hquery : name ≠ "query" := ne_of_fixed hname (by decide)
  have hitem : name ≠ "item" := ne_of_fixed hname (by decide)
  have hset : (Stmt.expr (.invoke (.ident "query") "set"
      [.string entry.key, asString (localName entry.parameter)])).names =
        ["query", "String", localName entry.parameter] := by
    have hreserved : isReserved "query" = false := by decide
    simp [Stmt.names, Expr.invoke, Expr.names, Expr.namesList, Expr.string, names_asString,
      hreserved]
  unfold queryStatement
  cases hrepeated : entry.repeated with
  | true =>
    rw [if_pos rfl]
    cases hoptional : entry.optional with
    | true =>
      rw [if_pos rfl, names_loop (readsAs_orNone _) (refers_orNone _)]
      simp [hstring, hquery, hitem]
    | false =>
      rw [if_neg Bool.false_ne_true, names_loop (readsAs_localName _) (refers_localName _)]
      simp [hstring, hquery, hitem]
  | false =>
    rw [if_neg Bool.false_ne_true]
    cases hoptional : entry.optional with
    | true =>
      rw [if_pos rfl, Stmt.names, names_presence]
      simp only [Stmt.namesList, hset, List.mem_append, List.mem_cons, List.not_mem_nil, hquery,
        hstring, or_false, false_or, and_self, true_and]
      grind
    | false =>
      rw [if_neg Bool.false_ne_true, hset]
      simp [hstring, hquery]

theorem mem_names_queryStatements_iff {entries : List QueryEntry} :
    name ∈ Stmt.namesList (queryStatements entries) ↔
      ∃ entry ∈ entries, name = localName entry.parameter ∨
        (entry.optional = true ∧ entry.repeated = false) ∧ name = "undefined" := by
  have hquery : name ≠ "query" := ne_of_fixed hname (by decide)
  have hsearch : name ≠ "URLSearchParams" := ne_of_fixed hname (by decide)
  have hnew : (Expr.code "new URLSearchParams()").names = ["URLSearchParams"] := by
    simp only [Expr.names]
    decide
  have htoString : (Expr.invoke (.ident "query") "toString" []).names = ["query"] := by
    have hreserved : isReserved "query" = false := by decide
    simp [Expr.invoke, Expr.names, Expr.namesList, hreserved]
  unfold queryStatements
  split_ifs with hnil
  · simp [hnil, Stmt.namesList]
  · rw [List.cons_append, Stmt.namesList, Stmt.names, hnew, Stmt.namesList_eq_flatMap]
    simp [List.flatMap_append, List.mem_flatMap, Stmt.names, htoString, hquery, hsearch,
      mem_names_queryStatement_iff hname]

theorem mem_names_urlTemplate_iff {function : Callable} :
    name ∈ function.urlTemplate.names ↔
      ∃ parameter ∈ function.uri.segments.filterMap UriSegment.parameter?,
        name = localName parameter ∨ name = "encodeURIComponent" := by
  have hsearch : name ≠ "search" := ne_of_fixed hname (by decide)
  have hthis : (TemplatePiece.substitution (.member (.ident "this") "baseUrl")).names = [] := by
    have hreserved : isReserved "this" = true := by decide
    simp [TemplatePiece.names, Expr.names, hreserved]
  have hpiece : searchPiece.names = ["search", "search"] := by
    simp only [searchPiece, TemplatePiece.names, Expr.names]
    decide
  rw [urlTemplate, Expr.names, TemplatePiece.namesList_eq_flatMap]
  have hlast : name ∉ (if function.uri.query = [] then [] else [searchPiece]).flatMap
      TemplatePiece.names := by
    split_ifs <;> simp [hpiece, hsearch]
  have hpieces : name ∈ (function.uri.segments.map function.segmentPiece).flatMap
      TemplatePiece.names ↔ ∃ parameter ∈ function.uri.segments.filterMap UriSegment.parameter?,
        name = localName parameter ∨ name = "encodeURIComponent" := by
    simp only [List.mem_flatMap, List.mem_map, List.mem_filterMap, exists_exists_and_eq_and,
      mem_names_segmentPiece_iff hname, Option.mem_def]
    constructor
    · rintro ⟨segment, hsegment, parameter, hparameter, heq⟩
      exact ⟨parameter, ⟨segment, hsegment, hparameter⟩, heq⟩
    · rintro ⟨parameter, ⟨segment, hsegment, hparameter⟩, heq⟩
      exact ⟨segment, hsegment, parameter, hparameter, heq⟩
  simp only [List.cons_append, List.flatMap_cons, hthis, List.flatMap_append, List.mem_append,
    List.not_mem_nil, false_or, hlast, or_false, hpieces]

theorem mem_names_headerStatements_iff {function : Callable} {contentType : Option String} :
    name ∈ Stmt.namesList (function.headerStatements contentType) ↔
      ∃ header ∈ function.headers, name = localName header.parameter ∨
        function.isConditional header = true ∧ name = "undefined" := by
  have hstring : name ≠ "String" := ne_of_fixed hname (by decide)
  have hheaders : name ≠ "headers" := ne_of_fixed hname (by decide)
  have hentry (header : HeaderBinding) :
      name ∈ (headerEntry header).names ↔ name = localName header.parameter := by
    simp [headerEntry, ObjectEntry.names, names_asString, hstring]
  have hconditional (header : HeaderBinding) : name ∈ (conditionalHeader header).names ↔
      name = localName header.parameter ∨ name = "undefined" := by
    rw [conditionalHeader, Stmt.names, names_presence, Stmt.namesList, Stmt.namesList,
      names_assignment]
    simp only [List.mem_append, List.mem_cons, hstring, hheaders, List.not_mem_nil, or_false,
      false_or]
    grind
  have htype : (contentType.toList.map fun type ↦
      ObjectEntry.property "Content-Type" (.string type)).flatMap ObjectEntry.names = [] := by
    cases contentType <;> simp [ObjectEntry.names, Expr.string, Expr.names]
  rw [headerStatements, List.partition_eq_filter_filter]
  simp only [Stmt.namesList, Stmt.names, Expr.names, ObjectEntry.namesList_eq_flatMap,
    Stmt.namesList_eq_flatMap, List.flatMap_append, htype, List.nil_append, List.mem_append,
    List.mem_flatMap, List.mem_map, List.mem_filter, exists_exists_and_eq_and, hentry,
    hconditional]
  constructor
  · rintro (⟨header, ⟨hheader, -⟩, heq⟩ | ⟨header, ⟨hheader, hmissing⟩, heq⟩)
    · exact ⟨header, hheader, .inl heq⟩
    · exact ⟨header, hheader, heq.imp_right (⟨hmissing, ·⟩)⟩
  · rintro ⟨header, hheader, heq⟩
    cases hmissing : function.isConditional header with
    | true => exact .inr ⟨header, ⟨hheader, hmissing⟩, heq.imp_right And.right⟩
    | false => exact .inl ⟨header, ⟨hheader, by simp [hmissing]⟩, by simpa [hmissing] using heq⟩

theorem mem_names_encode_iff (serialization : BodySerialization) (parameter : String) :
    name ∈ (serialization.encode (.ident (localName parameter))).1.names ↔
      name = localName parameter := by
  have hjson : name ≠ "JSON" := ne_of_fixed hname (by decide)
  have hform : name ≠ "URLSearchParams" := ne_of_fixed hname (by decide)
  have hreserved : isReserved "JSON" = false ∧ isReserved "URLSearchParams" = false := by decide
  cases serialization <;>
    simp [BodySerialization.encode, Expr.invoke, Expr.names, Expr.namesList, hreserved,
      isReserved_localName, hjson, hform]

theorem mem_names_send_iff (flavor : Flavor) (request : Request) (strategy : ReturnStrategy) :
    name ∈ Stmt.namesList (flavor.send request strategy) ↔
      (flavor = .fetch ∧ name = "fetch") ∨ ∃ body ∈ request.body, name ∈ body.names := by
  have hurl : name ≠ "url" := ne_of_fixed hname (by decide)
  have hres : name ≠ "res" := ne_of_fixed hname (by decide)
  have hheaders : name ≠ "headers" := ne_of_fixed hname (by decide)
  have herror : name ≠ "ApiError" := ne_of_fixed hname (by decide)
  have hreserved : isReserved "this" = true ∧ isReserved "url" = false ∧
      isReserved "headers" = false ∧ isReserved "fetch" = false := by decide
  have hfailed : Token.names (ofCode "!res.ok") = ["res"] := by decide
  have hthrow : Token.names
      (ofCode "throw new ApiError(res.status, res.statusText, await res.text());") =
        ["ApiError", "res", "res", "res"] := by
    decide
  have hoptions (bodyKey : String) : name ∈ (request.options bodyKey).flatMap ObjectEntry.names ↔
      ∃ body ∈ request.body, name ∈ body.names := by
    obtain ⟨method, hasHeaders, body⟩ := request
    cases hasHeaders <;> cases body <;>
      simp [Request.options, ObjectEntry.names, Expr.names, Expr.string, hreserved, hheaders]
  cases flavor with
  | fetch =>
    simp [Flavor.send, Request.sendFetch, Request.constRes, Stmt.namesList, Stmt.names, Expr.names,
      Expr.namesList, ObjectEntry.namesList, ObjectEntry.names, ObjectEntry.namesList_eq_flatMap,
      hreserved, hfailed, hthrow, hurl, hres, herror, hoptions]
  | axios =>
    have htype : ((Request.responseType? strategy).toList.map fun type ↦
        ObjectEntry.property "responseType" (.string type)).flatMap ObjectEntry.names = [] := by
      cases Request.responseType? strategy <;> simp [ObjectEntry.names, Expr.string, Expr.names]
    simp [Flavor.send, Request.sendAxios, Request.constRes, Stmt.namesList, Stmt.names, Expr.invoke,
      Expr.names, Expr.namesList, ObjectEntry.names, ObjectEntry.namesList_eq_flatMap, hreserved,
      hurl, hoptions, htype]

theorem not_mem_names_readBack (flavor : Flavor) (strategy : ReturnStrategy) (type : Ty) :
    name ∉ Stmt.namesList (flavor.readBack strategy type) := by
  have hres : name ≠ "res" := ne_of_fixed hname (by decide)
  have hjson : name ≠ "JSON" := ne_of_fixed hname (by decide)
  have hreserved : isReserved "res" = false ∧ isReserved "JSON" = false := by decide
  have hstatus : Token.names (ofCode "res.status === 204") = ["res"] := by decide
  have hjsonCall : Token.names (ofCode "(await res.json())") = ["res"] := by decide
  have hguard : ReturnStrategy.nullGuard.names = ["res"] := by
    simp [ReturnStrategy.nullGuard, Stmt.names, Stmt.namesList, Expr.names, hstatus]
  have hawait (method : String) : (ReturnStrategy.awaitRes method).names = ["res"] := by
    simp [ReturnStrategy.awaitRes, Expr.invoke, Expr.names, Expr.namesList, hreserved]
  have hdata : ReturnStrategy.resData.names = ["res"] := by
    simp [ReturnStrategy.resData, Expr.names, hreserved]
  have hnullable (value : Expr) (hvalue : name ∉ value.names) :
      name ∉ Stmt.namesList (ReturnStrategy.returnNullable value type) := by
    unfold ReturnStrategy.returnNullable
    split_ifs <;> simp [Stmt.namesList, Stmt.names, hguard, hres, hvalue]
  cases flavor with
  | fetch =>
    cases strategy with
    | scalar =>
      exact hnullable _ (by
        simp [Expr.names, Expr.invoke, Expr.namesList, hreserved, hawait, hjson, hres])
    | structured => exact hnullable _ (by simp [Expr.names, hjsonCall, hres])
    | _ =>
      simp [Flavor.readBack, ReturnStrategy.readFetch, Stmt.namesList, Stmt.names, hawait, hguard,
        hres]
  | axios =>
    cases strategy with
    | scalar => exact hnullable _ (by simp [Expr.names, hdata, hres])
    | structured => exact hnullable _ (by simp [Expr.names, hdata, hres])
    | _ =>
      simp [Flavor.readBack, ReturnStrategy.readAxios, Stmt.namesList, Stmt.names, Expr.names,
        hdata, hguard, hres]

end

/-! ## Global values -/

/-- Global values that the body uses under a name that a parameter may have. -/
inductive Exposes (flavor : Flavor) (function : Callable) : String → Prop
  | fetch (h : flavor = .fetch) : Exposes flavor function "fetch"
  | encode (h : function.uri.segments.filterMap UriSegment.parameter? ≠ []) :
      Exposes flavor function "encodeURIComponent"
  | queryPresence (entry : QueryEntry) (h : entry ∈ function.uri.query)
      (hoptional : entry.optional = true) (hsingle : entry.repeated = false) :
      Exposes flavor function "undefined"
  | headerPresence (header : HeaderBinding) (h : header ∈ function.headers)
      (hconditional : function.isConditional header = true) : Exposes flavor function "undefined"

/-- A body refers to the parameters that its request is made of, and to global values. -/
theorem mem_names_statements_iff {name : String} (hname : name ∉ fixedNames) (config : Config)
    (flavor : Flavor) (function : Callable) :
    name ∈ Stmt.namesList (function.statements config flavor) ↔
      (∃ parameter ∈ function.reads, name = localName parameter) ∨
        function.Exposes flavor name := by
  have hurl : name ∈ Stmt.namesList function.urlStatements ↔
      (∃ entry ∈ function.uri.query, name = localName entry.parameter ∨
        (entry.optional = true ∧ entry.repeated = false) ∧ name = "undefined") ∨
      ∃ parameter ∈ function.uri.segments.filterMap UriSegment.parameter?,
        name = localName parameter ∨ name = "encodeURIComponent" := by
    rw [urlStatements, Stmt.namesList_append, List.mem_append, mem_names_queryStatements_iff hname]
    simp [Stmt.namesList, Stmt.names, mem_names_urlTemplate_iff hname]
  have hheaders (contentType : Option String) :
      name ∈ Stmt.namesList
          (if function.hasHeaders then function.headerStatements contentType else []) ↔
        ∃ header ∈ function.headers, name = localName header.parameter ∨
          function.isConditional header = true ∧ name = "undefined" := by
    split_ifs with hsome
    · exact mem_names_headerStatements_iff hname
    · have hnone : function.headers = [] := by simp_all [hasHeaders]
      simp [hnone, Stmt.namesList]
  have hbody : (∃ body ∈ (function.encodedBody config).map Prod.fst, name ∈ body.names) ↔
      ∃ parameter ∈ function.body, name = localName parameter := by
    simp [encodedBody, mem_names_encode_iff hname]
  rw [statements]
  simp only [Stmt.namesList_append, List.mem_append, hurl, hheaders, mem_names_send_iff hname,
    hbody, not_mem_names_readBack hname, or_false]
  constructor
  · rintro (((⟨entry, hentry, rfl | ⟨⟨hoptional, hsingle⟩, rfl⟩⟩ |
        ⟨parameter, hparameter, rfl | rfl⟩) |
      ⟨header, hheader, rfl | ⟨hconditional, rfl⟩⟩) | ⟨hfetch, rfl⟩ | ⟨parameter, hparameter, rfl⟩)
    · exact .inl ⟨_, parameter_mem_reads hentry, rfl⟩
    · exact .inr (.queryPresence entry hentry hoptional hsingle)
    · exact .inl ⟨_, reads_segments function hparameter, rfl⟩
    · exact .inr (.encode (List.ne_nil_of_mem hparameter))
    · exact .inl ⟨_, header_mem_reads hheader, rfl⟩
    · exact .inr (.headerPresence header hheader hconditional)
    · exact .inr (.fetch hfetch)
    · exact .inl ⟨parameter, by simp [reads, Option.mem_def.1 hparameter], rfl⟩
  · rintro (⟨parameter, hparameter, rfl⟩ | hexposes)
    · simp only [reads, List.mem_append] at hparameter
      rcases hparameter with ((hsegment | hquery) | hfield) | hbody
      · exact .inl (.inl (.inr ⟨parameter, hsegment, .inl rfl⟩))
      · obtain ⟨entry, hentry, rfl⟩ := List.mem_map.1 hquery
        exact .inl (.inl (.inl ⟨entry, hentry, .inl rfl⟩))
      · obtain ⟨header, hheader, rfl⟩ := List.mem_map.1 hfield
        exact .inl (.inr ⟨header, hheader, .inl rfl⟩)
      · exact .inr (.inr ⟨parameter, Option.mem_toList.1 hbody, rfl⟩)
    · cases hexposes with
      | fetch hfetch => exact .inr (.inl ⟨hfetch, rfl⟩)
      | encode hne =>
        obtain ⟨parameter, hparameter⟩ := List.exists_mem_of_ne_nil _ hne
        exact .inl (.inl (.inr ⟨parameter, hparameter, .inr rfl⟩))
      | queryPresence entry hentry hoptional hsingle =>
        exact .inl (.inl (.inl ⟨entry, hentry, .inr ⟨⟨hoptional, hsingle⟩, rfl⟩⟩))
      | headerPresence header hheader hconditional =>
        exact .inl (.inr ⟨header, hheader, .inr ⟨hconditional, rfl⟩⟩)

/-! ## Names that a body declares -/

theorem declared_loop {ident value : String} {tokens : List Token} (hreads : ReadsAs value tokens)
    (hrefers : Refers ident tokens) (key : String) :
    (Stmt.code ("for (const item of " ++ value ++ ") \x7b\n  query.append(" ++
        (Expr.string key).print ++ ", String(item));\n\x7d")).declared = ["item"] := by
  have hdeclared (rest : List Token) : Token.declared (.word "for" :: .mark '(' :: .word "const" ::
      .word "item" :: .word "of" :: rest) = "item" :: Token.declared (.word "of" :: rest) := by
    simp [Token.declared]
  rw [Stmt.declared, ofCode_loop hreads]
  simp only [List.cons_append, List.append_assoc, hdeclared]
  rw [← List.cons_append, ← List.cons_append, hrefers.declared_eq]
  simp [Token.declared, appendItem]

theorem declared_assignment (key name : String) :
    (Stmt.code ("headers[" ++ (Expr.string key).print ++ "] = " ++
      (asString (localName name)).print ++ ";")).declared = [] := by
  rw [Stmt.declared, ofCode_assignment]
  simp [Token.declared]

theorem declared_queryStatement_subset (entry : QueryEntry) :
    (queryStatement entry).declared ⊆ methodLocals := by
  have hitem : ["item"] ⊆ methodLocals := by decide
  unfold queryStatement
  cases entry.repeated with
  | true =>
    rw [if_pos rfl]
    cases entry.optional with
    | true =>
      rw [if_pos rfl, declared_loop (readsAs_orNone _) (refers_orNone _)]
      exact hitem
    | false =>
      rw [if_neg Bool.false_ne_true, declared_loop (readsAs_localName _) (refers_localName _)]
      exact hitem
  | false =>
    rw [if_neg Bool.false_ne_true]
    cases entry.optional <;> simp [Stmt.declared, Stmt.declaredList]

theorem declared_urlStatements_subset (function : Callable) :
    ∀ stmt ∈ function.urlStatements, stmt.declared ⊆ methodLocals := by
  have hlocals : declaredName "query" ∈ methodLocals ∧ declaredName "search" ∈ methodLocals ∧
      declaredName "url" ∈ methodLocals := by
    decide
  have hqueries : ∀ stmt ∈ queryStatements function.uri.query, stmt.declared ⊆ methodLocals := by
    unfold queryStatements
    split_ifs
    · simp
    · intro stmt hstmt
      simp only [List.cons_append, List.mem_cons, List.mem_append, List.mem_map,
        List.not_mem_nil, or_false] at hstmt
      rcases hstmt with rfl | ⟨entry, -, rfl⟩ | rfl
      · simp [Stmt.declared, hlocals]
      · exact declared_queryStatement_subset entry
      · simp [Stmt.declared, hlocals]
  exact List.forall_mem_append.2 ⟨hqueries, by simp [Stmt.declared, hlocals]⟩

theorem declared_headerStatements_subset (function : Callable) (contentType : Option String) :
    ∀ stmt ∈ function.headerStatements contentType, stmt.declared ⊆ methodLocals := by
  have hlocal : declaredName "headers: Record<string, string>" ∈ methodLocals := by decide
  have hconditional (header : HeaderBinding) : (conditionalHeader header).declared = [] := by
    rw [conditionalHeader, Stmt.declared, Stmt.declaredList, declared_assignment]
    rfl
  refine List.forall_mem_cons.2 ⟨by simp [Stmt.declared, hlocal], ?_⟩
  simp [hconditional]

theorem declared_send_subset (flavor : Flavor) (request : Request) (strategy : ReturnStrategy) :
    ∀ stmt ∈ flavor.send request strategy, stmt.declared ⊆ methodLocals := by
  have hlocal : declaredName "res" ∈ methodLocals := by decide
  have hthrow : Token.declared
      (ofCode "throw new ApiError(res.status, res.statusText, await res.text());") = [] := by
    decide
  cases flavor <;>
    simp [Flavor.send, Request.sendFetch, Request.sendAxios, Request.constRes, Stmt.declared,
      Stmt.declaredList, hlocal, hthrow]

theorem declared_readBack (flavor : Flavor) (strategy : ReturnStrategy) (type : Ty) :
    ∀ stmt ∈ flavor.readBack strategy type, stmt.declared = [] := by
  have hguard : ReturnStrategy.nullGuard.declared = [] := by
    simp [ReturnStrategy.nullGuard, Stmt.declared, Stmt.declaredList]
  have hnullable (value : Expr) :
      ∀ stmt ∈ ReturnStrategy.returnNullable value type, stmt.declared = [] := by
    unfold ReturnStrategy.returnNullable
    split_ifs <;> simp [Stmt.declared, hguard]
  cases flavor with
  | fetch =>
    cases strategy with
    | scalar => exact hnullable _
    | structured => exact hnullable _
    | _ => simp [Flavor.readBack, ReturnStrategy.readFetch, Stmt.declared, hguard]
  | axios =>
    cases strategy with
    | scalar => exact hnullable _
    | structured => exact hnullable _
    | _ => simp [Flavor.readBack, ReturnStrategy.readAxios, Stmt.declared, hguard]

/-- A body declares no other names than those that parameters stay away from. -/
theorem declaredList_statements_subset (config : Config) (flavor : Flavor) (function : Callable) :
    Stmt.declaredList (function.statements config flavor) ⊆ methodLocals := by
  have hall : ∀ stmt ∈ function.statements config flavor, stmt.declared ⊆ methodLocals := by
    refine List.forall_mem_append.2 ⟨List.forall_mem_append.2 ⟨List.forall_mem_append.2
      ⟨declared_urlStatements_subset function, ?_⟩, declared_send_subset flavor _ _⟩, ?_⟩
    · split_ifs
      · exact declared_headerStatements_subset function _
      · simp
    · intro stmt hstmt
      rw [declared_readBack flavor _ _ stmt hstmt]
      exact List.nil_subset _
  rw [Stmt.declaredList_eq_flatMap]
  intro name hname
  obtain ⟨stmt, hstmt, hname⟩ := List.mem_flatMap.1 hname
  exact hall stmt hstmt hname

end Callable

end TypedClient
