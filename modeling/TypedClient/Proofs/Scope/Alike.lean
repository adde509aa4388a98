import TypedClient.Callable.Compile
import TypedClient.Client.Assembly
import TypedClient.Client.Linking
import TypedClient.Proofs.Registry
import TypedClient.Proofs.SourceType.Nesting

/-!
# Scopes that cannot be told apart

A scope is only ever asked for its settings, for the type of a name and for
whether a namespace is one of the run. Where two scopes give the same answers,
everything is made alike in them: references, functions, declarations and
linked bases. The order in which types are registered is not part of the answers.
-/

namespace TypedClient

/-- Two scopes that answer every question alike. -/
structure Scope.Alike (left right : Scope) : Prop where
  config_eq : left.config = right.config
  get?_eq : left.registry.get? = right.registry.get?
  containsSpace_eq : left.registry.containsSpace = right.registry.containsSpace

/-- Registered types may come in any order. -/
theorem Scope.alike_of_perm {left right : Scope} (hconfig : left.config = right.config)
    (hperm : left.registry.types.Perm right.registry.types) : left.Alike right where
  config_eq := hconfig
  get?_eq := by
    funext name
    ext type
    rw [Registry.get?_eq_some_iff, Registry.get?_eq_some_iff, hperm.mem_iff]
  containsSpace_eq := by
    funext space
    rw [Bool.eq_iff_iff, Registry.containsSpace_iff, Registry.containsSpace_iff]
    simp only [hperm.mem_iff]

namespace Scope.Alike

variable {left right : Scope}

theorem contains_eq (h : left.Alike right) : left.registry.contains = right.registry.contains := by
  funext name
  rw [Registry.contains_eq_isSome_get?, Registry.contains_eq_isSome_get?, h.get?_eq]

/-- The arguments of a declared type are made from references to its parts. -/
theorem resolveParams_congr {type : SourceType}
    (hparts : ∀ part ∈ type.parts, left.resolve part = right.resolve part) :
    left.resolveParams type.typeParams type.kind =
      right.resolveParams type.typeParams type.kind := by
  have hargs : type.args.map left.resolve = type.args.map right.resolve :=
    List.map_congr_left fun arg harg ↦ hparts arg (type.args_subset_parts harg)
  rw [resolveParams_eq, resolveParams_eq, hargs]

theorem resolveKind_congr (h : left.Alike right) {type : SourceType}
    (hparts : ∀ part ∈ type.parts, left.resolve part = right.resolve part) :
    left.resolveKind type.name type.kind = right.resolveKind type.name type.kind := by
  unfold SourceType.parts at hparts
  cases hkind : type.kind with
  | array rank element =>
    rw [hkind] at hparts
    rw [resolveKind, resolveKind, hparts element List.mem_cons_self]
  | generic family args =>
    rw [hkind] at hparts
    rw [resolveKind, resolveKind, resolveList_eq_map, resolveList_eq_map, h.config_eq,
      List.map_congr_left hparts]
  | _ => rfl

theorem resolve_eq (h : left.Alike right) : left.resolve = right.resolve := by
  funext type
  induction type using SourceType.inductionOnParts with
  | step type ih =>
    rw [Scope.resolve_eq, Scope.resolve_eq, h.contains_eq, h.config_eq, resolveParams_congr ih,
      resolveKind_congr h ih]

/-- Operations compile alike. -/
theorem compile_eq (h : left.Alike right) (operation : Operation) (docs : DocSource) :
    operation.compile left docs = operation.compile right docs := by
  have hfunction : operation.function left docs = operation.function right docs := by
    funext bound
    simp only [Operation.function, Operation.formal, h.resolve_eq]
  rw [Operation.compile, Operation.compile, hfunction]

/-- Types are declared alike. -/
theorem declare?_eq (h : left.Alike right) (filter : MemberFilter) (docs : DocSource) :
    SourceType.declare? left filter docs = SourceType.declare? right filter docs := by
  have hfield : SourceType.fieldOf left docs = SourceType.fieldOf right docs := by
    funext owner member
    rw [SourceType.fieldOf, SourceType.fieldOf, h.resolve_eq]
  have hbase : SourceType.baseOf left = SourceType.baseOf right := by
    funext type
    rw [SourceType.baseOf, SourceType.baseOf, h.resolve_eq]
  funext type
  simp only [SourceType.declare?, SourceType.declarationOf, SourceType.recordOf, hfield, hbase]

/-- Bases are linked alike. -/
theorem linkBases_eq (h : left.Alike right) (client : Client) :
    client.linkBases left = client.linkBases right := by
  have htarget : Base.target? left = Base.target? right := by
    funext base
    simp only [Base.target?, h.get?_eq, h.containsSpace_eq, h.config_eq]
  have hlink : Base.link left = Base.link right := by
    funext base
    rw [Base.link, Base.link, htarget]
  have hdeclaration : Declaration.link left = Declaration.link right := by
    funext declaration
    rw [Declaration.link, Declaration.link, hlink]
  rw [Client.linkBases, Client.linkBases, hdeclaration]

end Scope.Alike

end TypedClient
