import TypedClient.Callable.Strategy
import TypedClient.Proofs.Registry
import TypedClient.Proofs.SourceType.Nesting
import TypedClient.Proofs.TypeRef.Nesting

/-!
# Strategies and references

The strategy of a response and the reference to its type are made by two
recursions over the descriptor: one looks for framework types and never at the
registry, the other looks at the registry first. They agree as long as declared
names and framework names are kept apart and each comes with a kind that suits
it. Apart from nullable layers of the reference, nothing is read exactly for
`void`, a raw body exactly for a raw response, and untyped data exactly for a
loose object; text, scalars and structured data are read for references of
their own kind only. An enumeration counts as a scalar on the word of the
response, whatever its name is declared as.
-/

namespace TypedClient

variable {scope : Scope} {type inner : SourceType}

/-! ## Framework types -/

namespace WellKnown

/-- Whether a type is a wrapper depends on its arguments. -/
theorem ofName?_ne_wrapper (name : String) : ofName? name ≠ some wrapper := by
  intro h
  obtain ⟨before, after, htable, -⟩ := List.lookup_eq_some_iff.1 h
  have hmem : (Name.stripArity name, wrapper) ∈ table := by simp [htable]
  simp [table] at hmem

theorem of?_eq_none {name : String} (h : ofName? name = none) (kind : TypeKind) :
    of? name kind = none := by
  unfold of?
  rw [h]

theorem of?_eq_ofName? {name : String} {kind : TypeKind}
    (h : ∀ family arg, kind = .generic family [arg] → ofName? name ≠ some rawResponse) :
    of? name kind = ofName? name := by
  unfold of?
  split
  · rename_i family arg hname
    exact absurd hname (h family arg rfl)
  · rfl

end WellKnown

namespace TypeKind

/-- The kinds that a run can declare. -/
inductive Declared : TypeKind → Prop
  | custom : Declared .custom
  | enumeration : Declared .enumeration
  | generic (args : List SourceType) : Declared (.generic .custom args)

/-- The kinds of framework types. -/
inductive Framework : TypeKind → Prop
  | custom : Framework .custom
  | generic (args : List SourceType) : Framework (.generic .custom args)

end TypeKind

/-- No declared name is the name of a framework type. -/
def Registry.FrameworkFree (registry : Registry) : Prop :=
  ∀ type ∈ registry.types, WellKnown.ofName? type.name = none

theorem Registry.FrameworkFree.ofName?_eq_none {registry : Registry}
    (h : registry.FrameworkFree) {name : String} (hcontains : registry.contains name = true) :
    WellKnown.ofName? name = none := by
  obtain ⟨registered, hmem, rfl⟩ := contains_iff.1 hcontains
  exact h registered hmem

/-- A declared name comes with a kind that can be declared, and a framework name with the kind of
a framework type. -/
structure SourceType.Conforms (registry : Registry) (type : SourceType) : Prop where
  declared : registry.contains type.name = true → type.kind.Declared
  framework : WellKnown.ofName? type.name ≠ none → type.kind.Framework

/-! ## Wrappers -/

namespace SourceType

/-- A deferred value, a nullable or a typed response around the inner type. -/
inductive Wraps (type inner : SourceType) : Prop
  | deferred (hkind : type.kind = .generic .deferred [inner])
  | nullable (hkind : type.kind = .generic .nullable [inner])
  | response (family : GenericFamily) (hkind : type.kind = .generic family [inner])
      (hname : WellKnown.ofName? type.name = some .rawResponse)

theorem Wraps.exists_kind_eq (h : type.Wraps inner) :
    ∃ family, type.kind = .generic family [inner] := by
  cases h with
  | deferred hkind => exact ⟨_, hkind⟩
  | nullable hkind => exact ⟨_, hkind⟩
  | response family hkind _ => exact ⟨family, hkind⟩

theorem Wraps.mem_parts (h : type.Wraps inner) : inner ∈ type.parts := by
  obtain ⟨family, hkind⟩ := h.exists_kind_eq
  rw [parts, hkind]
  exact List.mem_singleton_self inner

end SourceType

namespace TypeRef

/-- The reference without the nullable layers around it. -/
def core : TypeRef → TypeRef
  | nullable inner => core inner
  | type => type

@[simp]
theorem core_orNull (type : TypeRef) : type.orNull.core = type.core := by
  cases type <;> simp [orNull, core]

/-- References to types whose values are structured. -/
inductive Structured : TypeRef → Prop
  | named (space : Option String) (name : String) (args : List TypeRef) :
      Structured (.named space name args)
  | array (element : TypeRef) (rank : Nat) : Structured (.array element rank)
  | tuple (shape : TupleShape TypeRef) : Structured (.tuple shape)
  | dictionary (key value : TypeRef) : Structured (.dictionary key value)
  | sequence (element : TypeRef) : Structured (.sequence element)
  | parameter (name : String) : Structured (.parameter name)

theorem Structured.core_eq {type : TypeRef} (h : type.Structured) : type.core = type := by
  cases h <;> simp [core]

end TypeRef

namespace Scope

theorem resolve_of_nullable (hcontains : ¬ scope.registry.contains type.name = true)
    (hkind : type.kind = .generic .nullable [inner]) :
    scope.resolve type = (scope.resolve inner).orNull := by
  rw [resolve_eq, if_neg hcontains, hkind, resolveKind, resolveList_eq_map]
  rfl

theorem generic_custom (config : Config) (name : String) (args : List TypeRef) :
    generic config name .custom args = externalGeneric name args := rfl

theorem externalGeneric_of_response {name : String}
    (hname : WellKnown.ofName? name = some .rawResponse) (arg : TypeRef) :
    externalGeneric name [arg] = arg := by
  unfold externalGeneric
  rw [hname]

/-- A framework type with arguments is replaced, unless it is a typed response. -/
theorem externalGeneric_of_known {known : WellKnown} {name : String}
    (hname : WellKnown.ofName? name = some known) {args : List TypeRef}
    (hraw : args.length = 1 → known ≠ .rawResponse) :
    externalGeneric name args = known.reference := by
  unfold externalGeneric
  rw [hname]
  split
  · rename_i hknown
    exact absurd (Option.some.inj hknown) (hraw rfl)
  · rename_i hknown _
    rw [Option.some.inj hknown]
  · contradiction

/-- Of the generic types that are no wrappers, those without a framework name are structured. -/
theorem structured_generic (config : Config) {name : String}
    (hname : WellKnown.ofName? name = none) {family : GenericFamily} {args : List TypeRef}
    (hnullable : ∀ arg, args = [arg] → family ≠ .nullable)
    (hdeferred : args.length ≤ 1 → family ≠ .deferred) :
    (generic config name family args).Structured := by
  unfold generic
  split
  · exact absurd rfl (hnullable _ rfl)
  · exact .tuple _
  · exact .dictionary _ _
  · exact absurd rfl (hdeferred (by simp))
  · exact absurd rfl (hdeferred (by simp))
  · split
    · exact .array _ _
    · exact .sequence _
  · unfold externalGeneric
    rw [hname]
    exact .named _ _ _

end Scope

namespace ReturnStrategy

theorem ofType_of_wraps (h : type.Wraps inner) : ofType type = ofType inner := by
  cases type
  cases h with
  | deferred hkind =>
    subst hkind
    rw [ofType, if_pos (.inl rfl)]
  | nullable hkind =>
    subst hkind
    rw [ofType, if_pos (.inr (.inl rfl))]
  | response family hkind hname =>
    subst hkind
    rw [ofType, if_pos (.inr (.inr hname))]

theorem ofType_of_empty (h : type.kind = .generic .deferred []) : ofType type = nothing := by
  cases type
  subst h
  rw [ofType]

theorem ofType_eq_ofPlain (hempty : type.kind ≠ .generic .deferred [])
    (hwraps : ∀ inner, ¬ type.Wraps inner) : ofType type = ofPlain type.name type.kind := by
  unfold ofType
  split
  · exact absurd rfl hempty
  · rw [if_neg]
    intro hwrapper
    rcases hwrapper with rfl | rfl | hname
    · exact hwraps _ (.deferred rfl)
    · exact hwraps _ (.nullable rfl)
    · exact hwraps _ (.response _ rfl hname)
  · rfl

/-- The strategy suits the reference, which belongs to the type. -/
inductive Reads (scope : Scope) (type : SourceType) : ReturnStrategy → TypeRef → Prop
  | nothing : Reads scope type .nothing .void
  | stream : Reads scope type .stream .rawResponse
  | dynamic : Reads scope type .dynamic .looseObject
  | text : Reads scope type .text (.scalar .string)
  | scalar (scalar : Scalar) : Reads scope type .scalar (.scalar scalar)
  | enumeration {mention registered : SourceType} {space name : String} {args : List TypeRef}
      (hoccurs : mention.Occurs type) (hkind : mention.kind = .enumeration)
      (hregistered : scope.registry.get? mention.name = some registered)
      (hresolve : scope.resolve mention = .named (some space) name args) :
      Reads scope type .scalar (.named (some space) name args)
  | structured {reference : TypeRef} (hstructured : reference.Structured) :
      Reads scope type .structured reference

theorem Reads.of_mem_parts {part : SourceType} (hpart : part ∈ type.parts)
    {strategy : ReturnStrategy} {reference : TypeRef} (h : Reads scope part strategy reference) :
    Reads scope type strategy reference := by
  cases h with
  | enumeration hoccurs hkind hregistered hresolve =>
    exact .enumeration (.part hpart hoccurs) hkind hregistered hresolve
  | nothing => exact .nothing
  | stream => exact .stream
  | dynamic => exact .dynamic
  | text => exact .text
  | scalar scalar => exact .scalar scalar
  | structured hstructured => exact .structured hstructured

/-! ## Types that are no wrappers -/

/-- A declared type is structured, unless the descriptor calls it an enumeration. -/
theorem reads_of_contains (hfree : scope.registry.FrameworkFree)
    (hcontains : scope.registry.contains type.name = true) (hdeclared : type.kind.Declared) :
    Reads scope type (ofPlain type.name type.kind) (scope.resolve type).core := by
  have hname := WellKnown.of?_eq_none (hfree.ofName?_eq_none hcontains) type.kind
  have hresolve := Scope.resolve_eq scope type
  rw [if_pos hcontains] at hresolve
  unfold ofPlain
  rw [hresolve, TypeRef.core, hname]
  · generalize hkind : type.kind = kind at hdeclared
    cases hdeclared with
    | custom => exact .structured (.named _ _ _)
    | enumeration =>
      obtain ⟨registered, hmem, hsame⟩ := Registry.contains_iff.1 hcontains
      exact .enumeration .self hkind (Registry.get?_eq_some_iff.2 ⟨hmem, hsame⟩)
        (hkind ▸ hresolve)
    | generic args => exact .structured (.named _ _ _)
  · exact nofun

theorem reads_reference {known : WellKnown} (hknown : known ≠ .wrapper) {name : String}
    {kind : TypeKind} (hname : WellKnown.of? name kind = some known) :
    Reads scope type (ofPlain name kind) known.reference.core := by
  unfold ofPlain
  rw [hname]
  cases known with
  | rawResponse => exact .stream
  | looseObject => exact .dynamic
  | wrapper => contradiction
  | void => exact .nothing

/-- A framework type without a wrapped argument is read as the table says. -/
theorem reads_of_framework {known : WellKnown}
    (hname : WellKnown.ofName? type.name = some known) (hkind : type.kind.Framework)
    (hwraps : ∀ inner, ¬ type.Wraps inner) :
    Reads scope type (ofPlain type.name type.kind)
      (scope.resolveKind type.name type.kind).core := by
  have hraw : ∀ family arg, type.kind = .generic family [arg] →
      WellKnown.ofName? type.name ≠ some .rawResponse :=
    fun family arg hkind hname ↦ hwraps arg (.response family hkind hname)
  have hof := (WellKnown.of?_eq_ofName? hraw).trans hname
  have hknown : known ≠ .wrapper := by
    rintro rfl
    exact WellKnown.ofName?_ne_wrapper _ hname
  have hreference : scope.resolveKind type.name type.kind = known.reference := by
    generalize type.kind = kind at hkind hraw hof
    cases hkind with
    | custom => rw [Scope.resolveKind, Scope.external, hof]
    | generic args =>
      rw [Scope.resolveKind, Scope.resolveList_eq_map, Scope.generic_custom]
      apply Scope.externalGeneric_of_known hname
      intro hlength
      rw [List.length_map] at hlength
      obtain ⟨arg, rfl⟩ := List.length_eq_one_iff.1 hlength
      rintro rfl
      exact hraw _ arg rfl hname
  rw [hreference]
  exact reads_reference hknown hof

/-- A type that is neither declared nor a framework type is read by its kind. -/
theorem reads_of_kind (hname : WellKnown.ofName? type.name = none)
    (hempty : type.kind ≠ .generic .deferred []) (hwraps : ∀ inner, ¬ type.Wraps inner) :
    Reads scope type (ofPlain type.name type.kind)
      (scope.resolveKind type.name type.kind).core := by
  have hof := WellKnown.of?_eq_none hname type.kind
  unfold ofPlain
  rw [hof]
  · generalize hkind : type.kind = kind at *
    cases kind with
    | primitive primitive => exact .scalar primitive.scalar
    | string => exact .text
    | enumeration => exact .scalar .integer
    | array rank element => exact .structured (.array _ _)
    | parameter => exact .structured (.parameter _)
    | custom =>
      rw [Scope.resolveKind, Scope.external, hof]
      exact .structured (.named _ _ _)
    | generic family args =>
      have hstructured : (scope.resolveKind type.name (.generic family args)).Structured := by
        rw [Scope.resolveKind, Scope.resolveList_eq_map]
        apply Scope.structured_generic _ hname
        · intro arg harg
          obtain ⟨inner, rfl⟩ := List.length_eq_one_iff.1
            ((List.length_map _).symm.trans (congrArg List.length harg))
          rintro rfl
          exact hwraps inner (.nullable hkind)
        · intro hlength
          rw [List.length_map] at hlength
          rintro rfl
          match args with
          | [] => exact hempty rfl
          | [inner] => exact hwraps inner (.deferred hkind)
          | _ :: _ :: _ => simp at hlength
      rw [hstructured.core_eq]
      exact .structured hstructured

/-! ## All types -/

theorem not_contains_of_wraps (hfree : scope.registry.FrameworkFree)
    (hconforms : type.Conforms scope.registry) (h : type.Wraps inner) :
    ¬ scope.registry.contains type.name = true := by
  intro hcontains
  have hdeclared := hconforms.declared hcontains
  cases h with
  | deferred hkind =>
    rw [hkind] at hdeclared
    cases hdeclared
  | nullable hkind =>
    rw [hkind] at hdeclared
    cases hdeclared
  | response family hkind hname =>
    rw [hfree.ofName?_eq_none hcontains] at hname
    contradiction

/-- A wrapper resolves to what it is wrapped around, and to a nullable of that if it is one. -/
theorem resolve_of_wraps (hfree : scope.registry.FrameworkFree)
    (hconforms : type.Conforms scope.registry) (h : type.Wraps inner) :
    type.kind = .generic .nullable [inner] ∧ scope.resolve type = (scope.resolve inner).orNull ∨
      type.kind ≠ .generic .nullable [inner] ∧ scope.resolve type = scope.resolve inner := by
  have hcontains := not_contains_of_wraps hfree hconforms h
  have hresolve := Scope.resolve_eq scope type
  rw [if_neg hcontains] at hresolve
  cases h with
  | deferred hkind =>
    refine .inr ⟨by simp [hkind], ?_⟩
    rw [hresolve, hkind, Scope.resolveKind, Scope.resolveList_eq_map]
    rfl
  | nullable hkind => exact .inl ⟨hkind, Scope.resolve_of_nullable hcontains hkind⟩
  | response family hkind hname =>
    have hframework := hconforms.framework (by simp [hname])
    rw [hkind] at hframework
    cases hframework with
    | generic args =>
      refine .inr ⟨by simp [hkind], ?_⟩
      rw [hresolve, hkind, Scope.resolveKind, Scope.resolveList_eq_map, List.map_singleton,
        Scope.generic_custom, Scope.externalGeneric_of_response hname]

theorem core_resolve_of_wraps (hfree : scope.registry.FrameworkFree)
    (hconforms : type.Conforms scope.registry) (h : type.Wraps inner) :
    (scope.resolve type).core = (scope.resolve inner).core := by
  rcases resolve_of_wraps hfree hconforms h with ⟨-, hresolve⟩ | ⟨-, hresolve⟩
  · rw [hresolve, TypeRef.core_orNull]
  · rw [hresolve]

theorem reads_ofType (hfree : scope.registry.FrameworkFree)
    (hconforms : ∀ inner : SourceType, inner.Occurs type → inner.Conforms scope.registry) :
    Reads scope type (ofType type) (scope.resolve type).core := by
  induction type using SourceType.inductionOnParts with
  | step type ih =>
    have hself := hconforms type .self
    by_cases hwraps : ∃ inner, type.Wraps inner
    · obtain ⟨inner, hinner⟩ := hwraps
      rw [ofType_of_wraps hinner, core_resolve_of_wraps hfree hself hinner]
      apply Reads.of_mem_parts hinner.mem_parts
      exact ih inner hinner.mem_parts fun other hoccurs ↦
        hconforms other (.part hinner.mem_parts hoccurs)
    · have hwraps := not_exists.1 hwraps
      by_cases hcontains : scope.registry.contains type.name = true
      · have hdeclared := hself.declared hcontains
        have hempty : type.kind ≠ .generic .deferred [] := by
          intro hkind
          rw [hkind] at hdeclared
          cases hdeclared
        rw [ofType_eq_ofPlain hempty hwraps]
        exact reads_of_contains hfree hcontains hdeclared
      · have hresolve := Scope.resolve_eq scope type
        rw [if_neg hcontains] at hresolve
        rw [hresolve]
        by_cases hempty : type.kind = .generic .deferred []
        · rw [ofType_of_empty hempty, hempty]
          exact .nothing
        · rw [ofType_eq_ofPlain hempty hwraps]
          cases hname : WellKnown.ofName? type.name with
          | none => exact reads_of_kind hname hempty hwraps
          | some known =>
            exact reads_of_framework hname (hself.framework (by simp [hname])) hwraps

/-- How a response is read says what is left of its reference without nullable layers. -/
theorem ofResponse_reads (hfree : scope.registry.FrameworkFree)
    (hconforms : ∀ inner : SourceType, inner.Occurs type → inner.Conforms scope.registry) :
    (ofResponse (some type) = .nothing ↔ (scope.resolve type).core = .void) ∧
    (ofResponse (some type) = .stream ↔ (scope.resolve type).core = .rawResponse) ∧
    (ofResponse (some type) = .dynamic ↔ (scope.resolve type).core = .looseObject) ∧
    (ofResponse (some type) = .text → (scope.resolve type).core = .scalar .string) ∧
    (ofResponse (some type) = .scalar →
      (∃ scalar, (scope.resolve type).core = .scalar scalar) ∨
      ∃ mention registered space name args, mention.Occurs type ∧ mention.kind = .enumeration ∧
        scope.registry.get? mention.name = some registered ∧
        scope.resolve mention = .named (some space) name args ∧
        (scope.resolve type).core = .named (some space) name args) ∧
    (ofResponse (some type) = .structured → (scope.resolve type).core.Structured) := by
  have hreads := reads_ofType hfree hconforms
  rw [ofResponse]
  generalize ofType type = strategy at hreads
  generalize (scope.resolve type).core = reference at hreads
  cases hreads with
  | nothing => simp
  | stream => simp
  | dynamic => simp
  | text => simp
  | scalar scalar => simp
  | enumeration hoccurs hkind hregistered hresolve =>
    simp only [reduceCtorEq, false_implies, true_implies, and_true, true_and, exists_false, false_or]
    exact ⟨_, _, _, _, _, hoccurs, hkind, hregistered, hresolve, rfl⟩
  | structured hstructured =>
    simp only [reduceCtorEq, false_implies, true_implies, false_iff, true_and]
    refine ⟨?_, ?_, ?_, hstructured⟩ <;> rintro rfl <;> cases hstructured

/-! ## A record that a response calls an enumeration -/

def recordType : SourceType :=
  { name := "Shop.Models.Order", space := "Shop.Models", kind := .custom }

def recordScope : Scope :=
  { registry := .ofList [recordType], config := {} }

/-- The name of the record, given as an enumeration. -/
def mislabelledType : SourceType :=
  { recordType with kind := .enumeration }

/-- Such an enumeration, possibly missing and arriving later. -/
def mislabelledResponse : SourceType :=
  .closed "System.Threading.Tasks.Task\x601" "System.Threading.Tasks" .deferred
    [.closed "System.Nullable\x601" "System" .nullable [mislabelledType]]

theorem recordScope_types : recordScope.registry.types = [recordType] :=
  Registry.ofList_types [recordType]

theorem recordScope_frameworkFree : recordScope.registry.FrameworkFree := by
  rw [Registry.FrameworkFree, recordScope_types]
  decide

theorem mislabelledType_conforms : mislabelledType.Conforms recordScope.registry where
  declared _ := .enumeration
  framework h := absurd (by decide) h

theorem occurs_mislabelledType {inner : SourceType} (h : inner.Occurs mislabelledType) :
    inner = mislabelledType := by
  cases h with
  | self => rfl
  | part hpart _ => cases hpart

theorem mislabelledResponse_conforms :
    ∀ inner : SourceType, inner.Occurs mislabelledResponse →
      inner.Conforms recordScope.registry := by
  intro inner hoccurs
  cases hoccurs with
  | self => exact ⟨fun h ↦ absurd h (by decide), fun h ↦ absurd (by decide) h⟩
  | part hpart hoccurs =>
    obtain rfl := List.mem_singleton.1 hpart
    cases hoccurs with
    | self => exact ⟨fun h ↦ absurd h (by decide), fun h ↦ absurd (by decide) h⟩
    | part hpart hoccurs =>
      obtain rfl := List.mem_singleton.1 hpart
      rw [occurs_mislabelledType hoccurs]
      exact mislabelledType_conforms

/-- The theorem at that response, which is read like a scalar. -/
theorem ofResponse_reads_mislabelledResponse :
    recordScope.registry.FrameworkFree ∧
      (∀ inner : SourceType, inner.Occurs mislabelledResponse →
        inner.Conforms recordScope.registry) ∧
      ofResponse (some mislabelledResponse) = .scalar ∧
      ((∃ scalar, (recordScope.resolve mislabelledResponse).core = .scalar scalar) ∨
        ∃ mention registered space name args, mention.Occurs mislabelledResponse ∧
          mention.kind = .enumeration ∧
          recordScope.registry.get? mention.name = some registered ∧
          recordScope.resolve mention = .named (some space) name args ∧
          (recordScope.resolve mislabelledResponse).core = .named (some space) name args) :=
  ⟨recordScope_frameworkFree, mislabelledResponse_conforms, rfl,
    (ofResponse_reads recordScope_frameworkFree mislabelledResponse_conforms).2.2.2.2.1 rfl⟩

/-- What is read like a scalar is not always a scalar or a declared enumeration. -/
theorem not_forall_scalar_enumeration : ¬ ∀ (scope : Scope) (type : SourceType),
    scope.registry.FrameworkFree →
    (∀ inner : SourceType, inner.Occurs type → inner.Conforms scope.registry) →
    ofResponse (some type) = .scalar →
    (∃ scalar, (scope.resolve type).core = .scalar scalar) ∨
      ∃ registered ∈ scope.registry.types, registered.kind = .enumeration ∧
        ∃ space name args, (scope.resolve type).core = .named (some space) name args := by
  intro hall
  rcases hall recordScope mislabelledType recordScope_frameworkFree
    (fun _ hoccurs ↦ occurs_mislabelledType hoccurs ▸ mislabelledType_conforms) rfl with
    ⟨scalar, hscalar⟩ | ⟨registered, hregistered, hkind, -⟩
  · cases hscalar
  · rw [recordScope_types, List.mem_singleton] at hregistered
    subst hregistered
    cases hkind

end ReturnStrategy

end TypedClient
