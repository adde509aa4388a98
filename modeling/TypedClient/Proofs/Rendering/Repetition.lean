import TypedClient.Proofs.Callable.Outcome
import TypedClient.Proofs.Callable.Transmission
import TypedClient.Proofs.Rendering.Nullability
import TypedClient.Proofs.Rendering.Request

/-!
# Repeated and optional query entries

Whether a query entry is repeated or optional is decided on the source type of
its parameter. The type that the method declares for the parameter is made from
its reference, and the two agree: an entry is repeated exactly if the type is an
array without null, and optional exactly if the parameter is or the type admits
null. So the loop over a repeated entry runs over a list, whatever a call passes.
-/

namespace TypedClient

open TypeScript (Ty Param Value Token Environment Platform Stmt localName)

/-! ## Values of types -/

namespace TypeScript

/-- Arrays, and arrays that are only read. -/
def Ty.isArray : Ty → Bool
  | array _ => true
  | reference name [_] => name = "ReadonlyArray"
  | _ => false

/-- The values of a type. The parts of a value are not looked at. -/
inductive Value.HasType : Value → Ty → Prop
  | undefined : HasType .undefined (.keyword .undefined)
  | void : HasType .undefined (.keyword .void)
  | null : HasType .null (.keyword .null)
  | bool (holds : Bool) : HasType (.bool holds) (.keyword .boolean)
  | scalar {keyword : Keyword} (hkeyword : keyword ∈ [Keyword.boolean, .number, .string])
      (content : String) : HasType (.text content) (.keyword keyword)
  | unknown (value : Value) : HasType value (.keyword .unknown)
  | list {type : Ty} (htype : type.isArray = true) (items : List String) :
      HasType (.list items) type
  | object (identity : Nat) (properties : List Property) :
      HasType (.object identity) (.object properties)
  | record (identity : Nat) (key value : Ty) : HasType (.object identity) (.record key value)
  | named {value : Value} {name : String} {args : List Ty} (hpresent : value.isAbsent = false)
      (htype : (Ty.reference name args).isArray = false) : HasType value (.reference name args)
  | member {value : Value} {members : List Ty} {member : Ty} (hmember : member ∈ members)
      (h : HasType value member) : HasType value (.union members)

namespace Value.HasType

variable {value : Value} {type : Ty}

theorem eq_undefined (h : value.HasType (.keyword .undefined)) : value = .undefined := by
  cases h with
  | undefined => rfl
  | scalar hkeyword _ => simp at hkeyword
  | list htype _ => simp [Ty.isArray] at htype

theorem eq_null (h : value.HasType (.keyword .null)) : value = .null := by
  cases h with
  | null => rfl
  | scalar hkeyword _ => simp at hkeyword
  | list htype _ => simp [Ty.isArray] at htype

theorem exists_member {members : List Ty} (h : value.HasType (.union members)) :
    ∃ member ∈ members, value.HasType member := by
  cases h with
  | member hmember h => exact ⟨_, hmember, h⟩
  | list htype _ => simp [Ty.isArray] at htype

theorem exists_eq_list (h : value.HasType type) (htype : type.isArray = true) :
    ∃ items, value = .list items := by
  cases h with
  | list _ items => exact ⟨items, rfl⟩
  | named _ hnot => simp [hnot] at htype
  | _ => simp [Ty.isArray] at htype

theorem of_orUndefined (h : value.HasType type.orUndefined) :
    value.HasType type ∨ value = .undefined := by
  cases type with
  | union members =>
    obtain ⟨member, hmember, hvalue⟩ := exists_member h
    rcases List.mem_append.1 hmember with hmember | hlast
    · exact .inl (.member hmember hvalue)
    · obtain rfl := List.mem_singleton.1 hlast
      exact .inr hvalue.eq_undefined
  | _ =>
    obtain ⟨member, hmember, hvalue⟩ := exists_member h
    rcases List.mem_pair.1 hmember with rfl | rfl
    · exact .inl hvalue
    · exact .inr hvalue.eq_undefined

/-- A value of a reference is null or a value of what is below its nullable layers. -/
theorem of_ofRef {type : TypeRef} (h : value.HasType (.ofRef type)) :
    value.HasType (.ofRef type.core) ∨ type.isNullable = true ∧ value = .null := by
  cases hnullable : type.isNullable with
  | false =>
    rw [TypeRef.core_of_isNullable_eq_false hnullable]
    exact .inl h
  | true =>
    rw [(Ty.ofRef_of_isNullable hnullable).2] at h
    obtain ⟨member, hmember, hvalue⟩ := exists_member h
    rcases List.mem_pair.1 hmember with rfl | rfl
    · exact .inl hvalue
    · exact .inr ⟨rfl, hvalue.eq_null⟩

end Value.HasType

/-- A call may pass the value for the parameter, or nothing if the parameter may be left out. -/
def Param.Admits (param : Param) (value : Value) : Prop :=
  value.HasType param.type ∨ param.optional = true ∧ value = .undefined

theorem Param.type_ofFormal (trailing : Bool) (formal : FormalParameter) :
    (ofFormal trailing formal).type = .ofRef formal.type ∨ formal.optional = true ∧
      (ofFormal trailing formal).type = (Ty.ofRef formal.type).orUndefined := by
  unfold ofFormal
  by_cases hmiddle : (formal.optional && !trailing) = true
  · simp only [hmiddle, if_true]
    exact .inr ⟨(Bool.and_eq_true_iff.1 hmiddle).1, trivial⟩
  · simp only [hmiddle]
    exact .inl rfl

/-- An argument is missing only if the parameter is optional or a nullable. -/
theorem Param.Admits.of_ofFormal {trailing : Bool} {formal : FormalParameter} {value : Value}
    (h : (Param.ofFormal trailing formal).Admits value) :
    value.HasType (.ofRef formal.type.core) ∨
      (formal.optional || formal.type.isNullable) = true ∧ value.isAbsent = true := by
  have hdeclared (h : value.HasType (.ofRef formal.type)) :
      value.HasType (.ofRef formal.type.core) ∨
        (formal.optional || formal.type.isNullable) = true ∧ value.isAbsent = true := by
    rcases h.of_ofRef with h | ⟨hnullable, rfl⟩
    · exact .inl h
    · exact .inr ⟨by simp [hnullable], rfl⟩
  rcases h with h | ⟨hoptional, rfl⟩
  · rcases type_ofFormal trailing formal with htype | ⟨hoptional, htype⟩
    · exact hdeclared (htype ▸ h)
    · rcases (htype ▸ h).of_orUndefined with h | rfl
      · exact hdeclared h
      · exact .inr ⟨by simp [hoptional], rfl⟩
  · simp only [ofFormal, Bool.and_eq_true] at hoptional
    exact .inr ⟨by simp [hoptional.1], rfl⟩

@[simp]
theorem Param.length_ofFormals (formals : List FormalParameter) :
    (Param.ofFormals formals).length = formals.length := by
  induction formals with
  | nil => rfl
  | cons formal formals ih => simp [ofFormals, ih]

theorem Param.exists_eq_ofFormal {formals : List FormalParameter} {pair : FormalParameter × Param}
    (h : pair ∈ formals.zip (Param.ofFormals formals)) :
    ∃ trailing, pair.2 = .ofFormal trailing pair.1 := by
  induction formals with
  | nil => simp at h
  | cons formal formals ih =>
    rw [ofFormals, List.zip_cons_cons] at h
    rcases List.mem_cons.1 h with rfl | h
    · exact ⟨_, rfl⟩
    · exact ih h

end TypeScript

/-! ## Source types and references -/

/-- The kinds that put a layer around other types. -/
inductive TypeKind.Layer : TypeKind → Prop
  | nullable (args : List SourceType) : Layer (.generic .nullable args)
  | array (rank : UInt32) (element : SourceType) : Layer (.array rank element)
  | sequence (args : List SourceType) : Layer (.generic .sequence args)

theorem TypeKind.Collects.layer {kind : TypeKind} {element : SourceType}
    (h : kind.Collects element) : kind.Layer := by
  cases h with
  | array element => exact .array 1 element
  | sequence element => exact .sequence [element]

/-- No nullable, array or sequence inside the type goes by the name of a declared type. -/
def SourceType.LayersUndeclared (registry : Registry) (type : SourceType) : Prop :=
  ∀ inner : SourceType, inner.Occurs type → inner.kind.Layer →
    ¬ registry.contains inner.name = true

namespace SourceType

variable {scope : Scope} {type inner core element : SourceType}

theorem LayersUndeclared.of_mem_parts {registry : Registry} (h : type.LayersUndeclared registry)
    (hpart : inner ∈ type.parts) : inner.LayersUndeclared registry :=
  fun _ hoccurs ↦ h _ (.part hpart hoccurs)

theorem Unwraps.layersUndeclared {registry : Registry} (h : type.Unwraps core)
    (hlayers : type.LayersUndeclared registry) : core.LayersUndeclared registry := by
  induction h with
  | refl type => exact hlayers
  | nullable hkind _ ih => exact ih (hlayers.of_mem_parts (by simp [parts, hkind]))

theorem Unwraps.core_resolve_eq (h : type.Unwraps core)
    (hlayers : type.LayersUndeclared scope.registry) :
    (scope.resolve type).core = (scope.resolve core).core := by
  induction h with
  | refl type => rfl
  | nullable hkind _ ih =>
    have hcontains := hlayers _ .self (hkind ▸ .nullable _)
    rw [Scope.resolve_of_nullable hcontains hkind, TypeRef.core_orNull]
    exact ih (hlayers.of_mem_parts (by simp [parts, hkind]))

end SourceType

theorem TypeScript.Ty.isArray_qualified (space name : String) (args : List Ty) :
    (Ty.reference (TypeRef.qualify (some space) name) args).isArray = false := by
  have hname : space ++ "." ++ name ≠ "ReadonlyArray" := by
    intro heq
    have hdot : '.' ∈ (space ++ "." ++ name).toList := by simp
    rw [heq] at hdot
    revert hdot
    decide
  unfold isArray
  split
  · contradiction
  · rename_i heq
    obtain ⟨rfl, -⟩ := Ty.reference.inj heq
    exact decide_eq_false hname
  · rfl

namespace Scope

variable {scope : Scope} {type element : SourceType}

/-- Types that are written as one text refer to no arrays. -/
theorem resolve_of_scalar (h : type.kind.Scalar) :
    (scope.resolve type).isNullable = false ∧
      (Ty.ofRef (scope.resolve type)).isArray = false := by
  rw [resolve_eq]
  split
  · rw [Ty.ofRef]
    exact ⟨rfl, Ty.isArray_qualified _ _ _⟩
  · generalize type.kind = kind at h
    cases h <;> exact ⟨rfl, rfl⟩

theorem resolve_of_collects (hcontains : ¬ scope.registry.contains type.name = true)
    (h : type.kind.Collects element) :
    (scope.resolve type).isNullable = false ∧ (Ty.ofRef (scope.resolve type)).isArray = true := by
  rw [resolve_eq, if_neg hcontains]
  generalize type.kind = kind at h
  cases h with
  | array element => exact ⟨rfl, rfl⟩
  | sequence element =>
    rw [resolveKind, resolveList_eq_map, List.map_singleton, generic]
    cases scope.config.sequenceToArray with
    | true => exact ⟨rfl, rfl⟩
    | false => exact ⟨rfl, rfl⟩

/-- A collection refers to an array once null is taken away, and nothing else does. -/
theorem isArray_withoutNull_resolve (hcarriable : type.Carriable)
    (hlayers : type.LayersUndeclared scope.registry) :
    (Ty.ofRef (scope.resolve type)).withoutNull.isArray = type.isCollection := by
  have hpeeled := SourceType.unwraps_peelNullable type
  rw [Ty.withoutNull_ofRef, hpeeled.core_resolve_eq hlayers, SourceType.isCollection]
  rcases SourceType.carriable_iff_peelNullable.1 hcarriable with hscalar | ⟨element, hcollects, -⟩
  · have hnone : type.element? = none := by
      refine Option.eq_none_iff_forall_ne_some.2 fun element helement ↦ ?_
      have hcollects := SourceType.element?_eq_some_iff.1 helement
      generalize type.peelNullable.kind = kind at hscalar hcollects
      cases hscalar <;> cases hcollects
    obtain ⟨hnullable, harray⟩ := @resolve_of_scalar scope _ hscalar
    rw [TypeRef.core_of_isNullable_eq_false hnullable, harray, hnone]
    rfl
  · have hcontains := hpeeled.layersUndeclared hlayers _ .self hcollects.layer
    obtain ⟨hnullable, harray⟩ := resolve_of_collects hcontains hcollects
    rw [TypeRef.core_of_isNullable_eq_false hnullable, harray,
      SourceType.element?_eq_some_iff.2 hcollects]
    rfl

theorem admitsNull_resolve (hcarriable : type.Carriable)
    (hlayers : type.LayersUndeclared scope.registry) :
    (Ty.ofRef (scope.resolve type)).admitsNull = type.isNullable := by
  rw [Ty.admitsNull_ofRef, SourceType.isNullable]
  by_cases hexists : ∃ inner, type.kind = .generic .nullable [inner]
  · obtain ⟨inner, hkind⟩ := hexists
    have hcontains := hlayers _ .self (hkind ▸ .nullable _)
    rw [resolve_of_nullable hcontains hkind, TypeRef.isNullable_orNull, hkind]
  · have hself := SourceType.peelNullable_eq_self (not_exists.1 hexists)
    rcases SourceType.carriable_iff_peelNullable.1 hcarriable with hscalar | ⟨element, hcollects, -⟩
    · rw [hself] at hscalar
      rw [(resolve_of_scalar hscalar).1]
      generalize type.kind = kind at hscalar
      cases hscalar <;> rfl
    · rw [hself] at hcollects
      have hcontains := hlayers _ .self hcollects.layer
      rw [(resolve_of_collects hcontains hcollects).1]
      generalize type.kind = kind at hcollects
      cases hcollects <;> rfl

end Scope

/-! ## Loops -/

namespace Callable

/-- The statement of the entry is a loop over the value of the tokens. -/
def LoopsOver (entry : QueryEntry) (range : List Token) : Prop :=
  ∃ code, queryStatement entry = .code code ∧
    Token.ofCode code = .word "for" :: .mark '(' :: .word "const" :: .word "item" :: .word "of" ::
      range ++ .mark ')' :: .mark '{' :: appendItem entry.key ++ [.mark '}']

/-- The argument of an entry, or nothing if it is missing and may be. -/
def entryRange (entry : QueryEntry) : List Token :=
  if entry.optional then
    [.word (localName entry.parameter), .mark '?', .mark '?', .mark '[', .mark ']']
  else [.word (localName entry.parameter)]

theorem loopsOver_iff {entry : QueryEntry} {range : List Token} :
    LoopsOver entry range ↔ entry.repeated = true ∧ range = entryRange entry := by
  unfold LoopsOver queryStatement entryRange
  cases entry.repeated with
  | false => cases entry.optional <;> simp
  | true =>
    have hloop {value : String} {tokens : List Token} (hreads : ReadsAs value tokens) :
        (∃ code, Stmt.code ("for (const item of " ++ value ++ ") \x7b\n  query.append(" ++
            (TypeScript.Expr.string entry.key).print ++ ", String(item));\n\x7d") = .code code ∧
          Token.ofCode code = .word "for" :: .mark '(' :: .word "const" :: .word "item" ::
            .word "of" :: range ++ .mark ')' :: .mark '{' :: appendItem entry.key ++ [.mark '}']) ↔
          range = tokens := by
      simp [ofCode_loop hreads, eq_comm]
    simp only [if_true, true_and]
    cases entry.optional with
    | true => exact hloop (readsAs_orNone entry.parameter)
    | false => exact hloop (readsAs_localName entry.parameter)

/-- The range of an entry is a list if the argument is one, and also if it is missing and may be. -/
theorem eval_entryRange {platform : Platform} {env : Environment} {entry : QueryEntry}
    {value : Value} (hname : env (localName entry.parameter) = some value)
    (hvalue : (∃ items, value = .list items) ∨ entry.optional = true ∧ value.isAbsent = true) :
    ∃ items, Token.eval platform env (entryRange entry) = some (.list items) := by
  unfold entryRange
  cases hentry : entry.optional with
  | true =>
    rw [if_pos rfl, (standsFor_orNone hname).eval_eq, Value.orElse]
    rcases hvalue with ⟨items, rfl⟩ | ⟨-, habsent⟩
    · exact ⟨items, rfl⟩
    · exact ⟨[], by rw [if_pos habsent]⟩
  | false =>
    rw [if_neg Bool.false_ne_true, (standsFor_localName hname).eval_eq]
    rcases hvalue with ⟨items, rfl⟩ | ⟨hoptional, -⟩
    · exact ⟨items, rfl⟩
    · exact absurd (hentry.symm.trans hoptional) Bool.false_ne_true

theorem queryStatement_mem_body {function : Callable} {entry : QueryEntry}
    (h : entry ∈ function.uri.query) (config : Config) (flavor : Flavor) :
    queryStatement entry ∈ (function.method config flavor).body := by
  have hne := List.ne_nil_of_mem h
  have hmem := List.mem_map_of_mem (f := queryStatement) h
  simp [method, statements, urlStatements, queryStatements, hne, hmem]

end Callable

/-! ## Entries -/

/-- What is decided about a query entry suits the type of its parameter. -/
structure QueryEntry.Suits (scope : Scope) (parameter : Parameter) (param : Param)
    (entry : QueryEntry) : Prop where
  parameter_eq : entry.parameter = parameter.name
  name_eq : param.name = localName entry.parameter
  /-- An optional parameter in front of a required one is given as `undefined`. -/
  type_eq : param.type = .ofRef (scope.resolve parameter.type) ∨
    parameter.optional = true ∧ param.type = (Ty.ofRef (scope.resolve parameter.type)).orUndefined
  repeated_iff : entry.repeated = true ↔
    (Ty.ofRef (scope.resolve parameter.type)).withoutNull.isArray = true
  optional_iff : entry.optional = true ↔
    parameter.optional = true ∨ (Ty.ofRef (scope.resolve parameter.type)).admitsNull = true
  loops_iff : entry.repeated = true ↔ ∃ range, Callable.LoopsOver entry range
  range : ∀ range, Callable.LoopsOver entry range →
    ∀ (platform : Platform) (env : Environment) (value : Value),
      env param.name = some value → param.Admits value →
        ∃ items, Token.eval platform env range = some (.list items)

namespace Operation

variable {scope : Scope} {docs : DocSource} {operation : Operation}

theorem carriable_of_bindingError? {parameter : Parameter}
    (h : operation.bindingError? parameter = none) (hbody : parameter.source ≠ .body) :
    parameter.type.Carriable := by
  rw [← SourceType.isSimple_iff]
  unfold bindingError? at h
  split at h
  · contradiction
  · contradiction
  · split at h
    · assumption
    · contradiction

theorem suits_queryEntry {parameter : Parameter} (hcarriable : parameter.type.Carriable)
    (hlayers : parameter.type.LayersUndeclared scope.registry) (role : Role) (trailing : Bool) :
    (Binding.queryEntry parameter).Suits scope parameter
      (.ofFormal trailing (formal scope parameter role)) := by
  have harray := Scope.isArray_withoutNull_resolve hcarriable hlayers
  have hnull := Scope.admitsNull_resolve hcarriable hlayers
  refine
    { parameter_eq := rfl
      name_eq := rfl
      type_eq := Param.type_ofFormal trailing _
      repeated_iff := by rw [harray]; rfl
      optional_iff := by rw [hnull, ← Bool.or_eq_true]; rfl
      loops_iff := by simp [Callable.loopsOver_iff]
      range := ?_ }
  intro range hloops platform env value hname hadmits
  obtain ⟨hrepeated, rfl⟩ := Callable.loopsOver_iff.1 hloops
  have hentry : env (localName (Binding.queryEntry parameter).parameter) = some value := hname
  apply Callable.eval_entryRange hentry
  rcases hadmits.of_ofFormal with hvalue | ⟨hmissing, habsent⟩
  · have hlist : (Ty.ofRef (scope.resolve parameter.type).core).isArray = true := by
      rw [← Ty.withoutNull_ofRef, harray]
      exact hrepeated
    exact .inl (hvalue.exists_eq_list hlist)
  · have hoptional : (parameter.optional || (scope.resolve parameter.type).isNullable) = true :=
      hmissing
    rw [← Ty.admitsNull_ofRef, hnull] at hoptional
    exact .inr ⟨hoptional, habsent⟩

section

variable {function : Callable} (h : operation.compile scope docs = .ok (.compiled function))
include h

theorem exists_eq_formal {pair : Parameter × FormalParameter}
    (hpair : pair ∈ operation.parameters.zip function.params) :
    ∃ role, pair.2 = formal scope pair.1 role := by
  obtain ⟨-, -, bound, hbind, rfl⟩ := compile_eq_compiled_iff.1 h
  obtain ⟨fills, slots, hbinds⟩ := Binding.exists_binds_of_bind hbind
  rw [hbinds.zip_eq] at hpair
  obtain ⟨slot, -, rfl⟩ := List.mem_map.1 hpair
  exact ⟨slot.finalRole, rfl⟩

theorem carriable_of_role_eq_query {pair : Parameter × FormalParameter}
    (hpair : pair ∈ operation.parameters.zip function.params) (hrole : pair.2.role = .query) :
    pair.1.type.Carriable := by
  have hbody : pair.1.source ≠ .body := by
    rw [Ne, ← (transmits_of_compile h).body_iff pair hpair, hrole]
    decide
  obtain ⟨-, hcheck, -⟩ := compile_eq_compiled_iff.1 h
  have hnone := (checkBindings_eq_ok_iff.1 hcheck).1 pair.1 (List.of_mem_zip hpair).1
  exact carriable_of_bindingError? hnone hbody

/-- The query entries of a compiled operation suit the parameters that they are written for. -/
theorem query_suits_types (hlayers : ∀ parameter ∈ operation.parameters,
    parameter.type.LayersUndeclared scope.registry) (config : Config) (flavor : Flavor) :
    let method := function.method config flavor
    (∀ entry ∈ function.uri.query, Callable.queryStatement entry ∈ method.body) ∧
    List.Forall₂ (fun entry sent ↦ entry.Suits scope sent.1 sent.2.2) function.uri.query
      ((operation.parameters.zip (function.params.zip method.params)).filter
        (·.2.1.role = .query)) := by
  intro method
  refine ⟨fun entry hentry ↦ Callable.queryStatement_mem_body hentry config flavor, ?_⟩
  have hzip : operation.parameters.zip function.params =
      (operation.parameters.zip (function.params.zip method.params)).map
        (Prod.map id Prod.fst) := by
    have hlength : function.params.length ≤ method.params.length :=
      (Param.length_ofFormals function.params).ge
    rw [← List.zip_map_right, List.map_fst_zip hlength]
  have hquery : function.uri.query =
      ((operation.parameters.zip (function.params.zip method.params)).filter
        (·.2.1.role = .query)).map fun sent ↦ Binding.queryEntry sent.1 := by
    rw [(transmits_of_compile h).query, hzip, List.filter_map, List.map_map]
    rfl
  rw [hquery, List.forall₂_map_left_iff, List.forall₂_same]
  intro sent hsent
  obtain ⟨hsent, hrole⟩ := List.mem_filter.1 hsent
  have hpair : (sent.1, sent.2.1) ∈ operation.parameters.zip function.params :=
    hzip ▸ List.mem_map_of_mem hsent
  obtain ⟨hparameter, hparam⟩ := List.of_mem_zip hsent
  obtain ⟨role, hformal⟩ : ∃ role, sent.2.1 = formal scope sent.1 role := exists_eq_formal h hpair
  obtain ⟨trailing, hparam⟩ := Param.exists_eq_ofFormal hparam
  rw [hparam, hformal]
  exact suits_queryEntry (carriable_of_role_eq_query h hpair (of_decide_eq_true hrole))
    (hlayers _ hparameter) role trailing

end

def colorType : SourceType :=
  { name := "Shop.Color", space := "Shop", kind := .enumeration }

def colorScope : Scope :=
  { registry := .ofList [colorType], config := {} }

/-- A sequence that may be null, and an optional array in front of a required text. -/
def paletteSearch : Operation :=
  { name := "Search"
    container := "Shop.Controllers.PalettesController"
    verb := .get
    route := "palettes"
    parameters :=
      [{ name := "colors"
         type := .closed "System.Nullable\x601" "System" .nullable
          [.closed "System.Collections.Generic.List\x601" "System.Collections.Generic" .sequence
            [colorType]] },
       { name := "sizes", type := .array (.ofPrimitive .int32) 1, optional := true },
       { name := "name", type := .string }] }

theorem paletteSearch_layersUndeclared : ∀ parameter ∈ paletteSearch.parameters,
    parameter.type.LayersUndeclared colorScope.registry := by
  simp only [paletteSearch, List.forall_mem_cons]
  refine ⟨?_, ?_, ?_, nofun⟩
  · refine SourceType.forall_occurs_iff.2 ⟨fun _ ↦ by decide, List.forall_mem_singleton.2 ?_⟩
    refine SourceType.forall_occurs_iff.2 ⟨fun _ ↦ by decide, List.forall_mem_singleton.2 ?_⟩
    exact SourceType.forall_occurs_iff.2 ⟨nofun, nofun⟩
  · refine SourceType.forall_occurs_iff.2 ⟨fun _ ↦ by decide, List.forall_mem_singleton.2 ?_⟩
    exact SourceType.forall_occurs_iff.2 ⟨nofun, nofun⟩
  · exact SourceType.forall_occurs_iff.2 ⟨nofun, nofun⟩

/-- Sequence and array are repeated, and both may be missing. -/
theorem paletteSearch_query_suits :
    ∃ function, paletteSearch.compile colorScope ({} : Docs) = .ok (.compiled function) ∧
      (function.uri.query.map fun entry ↦ (entry.key, entry.repeated, entry.optional)) =
        [("colors", true, true), ("sizes", true, true), ("name", false, false)] ∧
      List.Forall₂ (fun entry sent ↦ entry.Suits colorScope sent.1 sent.2.2) function.uri.query
        ((paletteSearch.parameters.zip
          (function.params.zip (function.method {} .fetch).params)).filter
            (·.2.1.role = .query)) :=
  ⟨_, rfl, by decide, (query_suits_types rfl paletteSearch_layersUndeclared {} .fetch).2⟩

end Operation

end TypedClient
