import TypedClient.Proofs.Rendering.Code
import TypedClient.Proofs.TypeScript.Evaluation

/-!
# Requests that functions describe

A function describes a request: its path, its search query, its headers and its
body, each of them made of arguments. Inside a method the names of parameters
stand for the arguments, and what the body writes for an argument has the value
that the description gives it, as long as no global value is hidden.
-/

namespace TypedClient

open TypeScript (Token Expr Value Platform Environment Sent Payload localName putEntry methodLocals)
open TypeScript.Token (eval evalFrom)
open TypeScript.Waiting (settle operator?)

/-! ## Requests -/

def UriSegment.parameter? : UriSegment → Option String
  | literal _ => none
  | parameter name _ => some name

namespace BodySerialization

def contentType : BodySerialization → String
  | json => "application/json"
  | formUrlEncoded => "application/x-www-form-urlencoded"

def payload : BodySerialization → Value → Payload
  | json => .json
  | formUrlEncoded => .form

end BodySerialization

namespace Callable

/-- Names of the parameters that a request is made of. -/
def reads (function : Callable) : List String :=
  function.uri.segments.filterMap UriSegment.parameter? ++
    function.uri.query.map QueryEntry.parameter ++
      function.headers.map HeaderBinding.parameter ++ function.body.toList

section

variable (platform : Platform) (argument : String → Value)

/-- A segment with its argument, escaped; an optional one that is missing leaves nothing. -/
def segmentText (function : Callable) : UriSegment → String
  | .literal text => text
  | .parameter name catchAll =>
    let value := if function.isOptional name && (argument name).isAbsent then ""
      else (argument name).toText platform
    if catchAll then "/".intercalate ((value.splitOn "/").map platform.encode)
    else platform.encode value

/-- The search query behind an entry. There is none if a value is missing that has to be run
over. -/
def writeQuery (query : List (String × String)) (entry : QueryEntry) :
    Option (List (String × String)) :=
  let value := argument entry.parameter
  if entry.optional && value.isAbsent then some query
  else if entry.repeated then value.items?.map fun items ↦ query ++ items.map (entry.key, ·)
  else some (putEntry entry.key (value.toText platform) query)

def searchText (query : List (String × String)) : String :=
  if platform.serialize query = "" then "" else "?" ++ platform.serialize query

def writeHeader (function : Callable) (headers : List (String × String)) (header : HeaderBinding) :
    List (String × String) :=
  let value := argument header.parameter
  if function.isConditional header && value.isAbsent then headers
  else putEntry header.header (value.toText platform) headers

/-- Headers that are always there come first. -/
def headerFields (function : Callable) (contentType : Option String) : List (String × String) :=
  let ordered := function.headers.partition function.isConditional
  (ordered.2 ++ ordered.1).foldl (function.writeHeader platform argument)
    (contentType.toList.map ("Content-Type", ·))

/-- The address, with the given search query behind the path. -/
def url (function : Callable) (query : List (String × String)) : String :=
  platform.base ++
    String.join (function.uri.segments.map (function.segmentText platform argument)) ++
      if function.uri.query = [] then "" else searchText platform query

/-- What is sent with the given search query. -/
def sentWith (config : Config) (function : Callable) (query : List (String × String)) : Sent :=
  { method := function.verb.name
    url := function.url platform argument query
    headers := if function.hasHeaders then
        some (function.headerFields platform argument
          (function.body.map fun _ ↦ config.bodySerialization.contentType))
      else none
    body := function.body.map fun name ↦ config.bodySerialization.payload (argument name) }

/-- The request that a function describes. -/
def request (config : Config) (function : Callable) : Option Sent :=
  (function.uri.query.foldlM (writeQuery platform argument) []).map
    (function.sentWith platform argument config)

end

/-! ## Names in scope -/

/-- Global values that the body of a method uses on the way to its request. -/
def globalNames : List String :=
  ["undefined", "String", "encodeURIComponent", "URLSearchParams", "JSON", "fetch"]

theorem lookup_localName {env : Environment} {name : String} {value : Value}
    (h : env (localName name) = some value) : env.lookup (localName name) = some value := by
  have hnull : localName name ≠ "null" := by
    intro heq
    have hunreserved := (TypeScript.isIdentifier_localName name).unreserved
    rw [heq] at hunreserved
    revert hunreserved
    decide
  exact Environment.lookup_eq hnull h

/-- The names of the given parameters stand for their arguments, and no global value is hidden. -/
structure Supplies (env : Environment) (argument : String → Value) (names : List String) :
    Prop where
  argument_eq : ∀ name ∈ names, env (localName name) = some (argument name)
  free : ∀ name ∈ globalNames, env name = none

namespace Supplies

variable {env : Environment} {argument : String → Value} {names : List String}

/-- What the body declares hides neither parameters nor global values. -/
theorem update (h : Supplies env argument names) (declared : String) (value : Option Value)
    (hdeclared : declared ∈ methodLocals) :
    Supplies (Function.update env declared value) argument names := by
  have hglobals : ∀ name ∈ globalNames, name ∉ methodLocals := by decide
  constructor
  · intro name hname
    have hne : localName name ≠ declared := fun heq ↦
      TypeScript.localName_not_mem_methodLocals name (heq ▸ hdeclared)
    rw [Function.update_of_ne hne, h.argument_eq name hname]
  · intro name hname
    have hne : name ≠ declared := fun heq ↦ hglobals name hname (heq ▸ hdeclared)
    rw [Function.update_of_ne hne, h.free name hname]

theorem lookup_localName (h : Supplies env argument names) {name : String} (hname : name ∈ names) :
    env.lookup (localName name) = some (argument name) :=
  Callable.lookup_localName (h.argument_eq name hname)

theorem lookup_undefined (h : Supplies env argument names) :
    env.lookup "undefined" = some .undefined := by
  rw [Environment.lookup, h.free _ (by decide)]
  rfl

theorem call_string (h : Supplies env argument names) (platform : Platform) (value : Value) :
    env.call platform "String" value = some (.text (value.toText platform)) := by
  rw [Environment.call, h.free _ (by decide)]
  rfl

theorem call_encode (h : Supplies env argument names) (platform : Platform) (value : Value) :
    env.call platform "encodeURIComponent" value =
      some (.text (platform.encode (value.toText platform))) := by
  rw [Environment.call, h.free _ (by decide)]
  rfl

end Supplies

/-! ## Expressions -/

section

variable {platform : Platform} {env : Environment} {argument : String → Value}
  {names : List String}

/-- The tokens stand for a value, by themselves and as the argument of a call. -/
structure StandsFor (platform : Platform) (env : Environment) (tokens : List Token)
    (value : Value) : Prop where
  eval_eq : eval platform env tokens = some value
  evalFrom_eq : ∀ function stack rest,
    evalFrom platform env (.call function :: stack) none (tokens ++ .mark ')' :: rest) =
      evalFrom platform env (.call function :: stack) (some value) (.mark ')' :: rest)

theorem standsFor_localName {name : String} {value : Value}
    (h : env (localName name) = some value) :
    StandsFor platform env [.word (localName name)] value := by
  have hlookup := lookup_localName h
  constructor
  · exact Token.eval_word hlookup
  · intro function stack rest
    simp [evalFrom, hlookup]

theorem standsFor_orEmpty {name : String} {value : Value}
    (h : env (localName name) = some value) :
    StandsFor platform env [.word (localName name), .mark '?', .mark '?', .quoted ""]
      (value.orElse (.text "")) := by
  have hlookup := lookup_localName h
  constructor
  · simp [eval, evalFrom, hlookup, settle, operator?]
  · intro function stack rest
    simp [evalFrom, hlookup, settle, operator?]

theorem standsFor_orNone {name : String} {value : Value}
    (h : env (localName name) = some value) :
    StandsFor platform env [.word (localName name), .mark '?', .mark '?', .mark '[', .mark ']']
      (value.orElse (.list [])) := by
  have hlookup := lookup_localName h
  constructor
  · simp [eval, evalFrom, hlookup, settle, operator?]
  · intro function stack rest
    simp [evalFrom, hlookup, settle, operator?]

theorem eval_presence (h : Supplies env argument names) {name : String} (hname : name ∈ names) :
    (presence (localName name)).eval platform env = some (.bool (!(argument name).isAbsent)) := by
  have hlookup := h.lookup_localName hname
  rw [presence, Expr.eval, ofCode_presence]
  have hboth : eval platform env [.word (localName name), .mark '!', .mark '=', .mark '=',
      .word "undefined", .mark '&', .mark '&', .word (localName name), .mark '!', .mark '=',
      .mark '=', .word "null"] =
      some ((Value.bool (argument name ≠ .undefined)).both (.bool (argument name ≠ .null))) := by
    simp [eval, evalFrom, hlookup, h.lookup_undefined, Environment.lookup_null, settle, operator?]
  rw [hboth]
  cases argument name <;> rfl

theorem eval_asString (h : Supplies env argument names) {name : String} (hname : name ∈ names) :
    (asString (localName name)).eval platform env =
      some (.text ((argument name).toText platform)) := by
  simp only [asString, Expr.eval, h.lookup_localName hname, h.call_string]

theorem invoke_encodedParts (h : Supplies env argument names) (content : String) :
    evalFrom platform env [] (some (.text content)) (encodedParts.drop 1) =
      some (.text ("/".intercalate ((content.splitOn "/").map platform.encode))) := by
  have hsplit : env.invoke platform (.text content) "split" (.quoted "/") =
      some (.list (content.splitOn "/")) := rfl
  have hmap (items : List String) :
      env.invoke platform (.list items) "map" (.word "encodeURIComponent") =
        some (.list (items.map platform.encode)) :=
    if_pos ⟨rfl, rfl, h.free _ (by decide)⟩
  have hjoin (items : List String) : env.invoke platform (.list items) "join" (.quoted "/") =
      some (.text ("/".intercalate items)) := rfl
  simp [encodedParts, evalFrom, hsplit, hmap, hjoin, settle]

theorem eval_encodedSegment (h : Supplies env argument names) {value : String}
    {tokens : List Token} {result : Value} (hreads : ReadsAs value tokens)
    (hstands : StandsFor platform env tokens result) (catchAll : Bool) :
    (encodedSegment value catchAll).eval platform env = some (.text
      (if catchAll then "/".intercalate (((result.toText platform).splitOn "/").map platform.encode)
        else platform.encode (result.toText platform))) := by
  cases catchAll with
  | true =>
    rw [encodedSegment, if_pos rfl, Expr.eval, ofCode_encodedParts hreads, eval]
    have hparts : encodedParts = .mark ')' :: encodedParts.drop 1 := rfl
    rw [hparts, List.cons_append, List.cons_append, evalFrom, hstands.evalFrom_eq]
    simp only [evalFrom, settle, operator?, h.call_string]
    rw [invoke_encodedParts h]
    rfl
  | false =>
    rw [encodedSegment, if_neg Bool.false_ne_true, Expr.eval, ofCode_encoded hreads]
    simp only [eval, List.cons_append, evalFrom, hstands.evalFrom_eq, settle,
      operator?, h.call_string, h.call_encode]
    rfl

end

end Callable

end TypedClient
