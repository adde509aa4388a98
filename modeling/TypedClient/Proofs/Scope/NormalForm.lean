import Mathlib.Data.List.Basic
import TypedClient.Proofs.SourceType.Nesting
import TypedClient.Proofs.TupleShape.Folding
import TypedClient.Proofs.TypeRef.Nesting

/-!
# The normal form of resolved references

Resolution never puts a nullable right inside a nullable, makes tuples only of
slots that are there, and folds them; sequences are left only where they are not
to become arrays. All this holds at any depth. Whether sequences become arrays
changes nothing else about a reference: node by node, a sequence is replaced by
an array of rank one, and every other node stays what it is.
-/

namespace TypedClient

namespace TypeRef

/-- What resolution admits at a node. -/
def IsNormalNode (config : Config) : TypeRef → Prop
  | nullable inner => ∀ below, inner ≠ nullable below
  | tuple shape => shape.isEmpty = false ∧ shape.IsFolded
  | sequence _ => config.sequenceToArray = false
  | _ => True

/-- Every node of the reference, at any depth, is as resolution makes it. -/
def IsNormal (config : Config) (type : TypeRef) : Prop :=
  ∀ node ∈ type.nodes, node.IsNormalNode config

variable {config : Config} {type : TypeRef}

theorem isNormal_iff : type.IsNormal config ↔
    type.IsNormalNode config ∧ ∀ child ∈ type.children, child.IsNormal config := by
  simp only [IsNormal, nodes_eq type, List.forall_mem_cons, List.forall_mem_flatMap]

theorem isNormal_orNull (h : type.IsNormal config) : type.orNull.IsNormal config := by
  cases type with
  | nullable inner => exact h
  | _ => exact isNormal_iff.2 ⟨fun below ↦ nofun, List.forall_mem_singleton.2 h⟩

theorem isNormal_fold {slots : List TypeRef} (hslots : slots ≠ [])
    (h : ∀ slot ∈ slots, slot.IsNormal config) : (tuple (.fold slots)).IsNormal config := by
  refine isNormal_iff.2 ⟨⟨?_, TupleShape.isFolded_fold slots⟩, ?_⟩
  · rw [TupleShape.isEmpty_eq_false_iff, TupleShape.length_fold]
    exact List.length_pos_iff.2 hslots
  · rwa [children, TupleShape.unfold_fold]

end TypeRef

namespace Scope

/-! ## Nodes of a resolved reference -/

variable {config : Config} {name : String} {args : List TypeRef}

theorem isNormal_reference (known : WellKnown) : known.reference.IsNormal config := by
  cases known <;> exact TypeRef.isNormal_iff.2 ⟨trivial, nofun⟩

theorem isNormal_parameter (name : String) : (TypeRef.parameter name).IsNormal config :=
  TypeRef.isNormal_iff.2 ⟨trivial, nofun⟩

theorem isNormal_named {space : Option String} (h : ∀ arg ∈ args, arg.IsNormal config) :
    (TypeRef.named space name args).IsNormal config :=
  TypeRef.isNormal_iff.2 ⟨trivial, h⟩

theorem isNormal_external (name : String) (kind : TypeKind) :
    (external name kind).IsNormal config := by
  unfold external
  split
  · exact isNormal_reference _
  · exact isNormal_named nofun

theorem isNormal_externalGeneric (h : ∀ arg ∈ args, arg.IsNormal config) :
    (externalGeneric name args).IsNormal config := by
  unfold externalGeneric
  split
  · exact h _ List.mem_cons_self
  · exact isNormal_reference _
  · exact isNormal_named h

theorem isNormal_generic {family : GenericFamily} (h : ∀ arg ∈ args, arg.IsNormal config) :
    (generic config name family args).IsNormal config := by
  unfold generic
  split
  · exact TypeRef.isNormal_orNull (h _ List.mem_cons_self)
  · exact TypeRef.isNormal_fold (List.cons_ne_nil _ _) h
  · exact TypeRef.isNormal_iff.2 ⟨trivial, h⟩
  · exact TypeRef.isNormal_iff.2 ⟨trivial, nofun⟩
  · exact h _ List.mem_cons_self
  · split
    · exact TypeRef.isNormal_iff.2 ⟨trivial, h⟩
    · rename_i hkept
      exact TypeRef.isNormal_iff.2 ⟨Bool.eq_false_iff.2 hkept, h⟩
  · exact isNormal_externalGeneric h

theorem isNormal_resolveParams {scope : Scope} {type : SourceType}
    (h : ∀ part ∈ type.parts, (scope.resolve part).IsNormal scope.config) :
    ∀ arg ∈ scope.resolveParams type.typeParams type.kind, arg.IsNormal scope.config := by
  rw [resolveParams_eq]
  split
  · exact List.forall_mem_map.2 fun name _ ↦ isNormal_parameter name
  · exact List.forall_mem_map.2 fun arg harg ↦ h arg (type.args_subset_parts harg)

theorem isNormal_resolveKind {scope : Scope} {type : SourceType}
    (h : ∀ part ∈ type.parts, (scope.resolve part).IsNormal scope.config) :
    (scope.resolveKind type.name type.kind).IsNormal scope.config := by
  unfold SourceType.parts at h
  cases hkind : type.kind with
  | array rank element =>
    rw [hkind] at h
    exact TypeRef.isNormal_iff.2
      ⟨trivial, List.forall_mem_singleton.2 (h element List.mem_cons_self)⟩
  | generic family args =>
    rw [hkind] at h
    rw [resolveKind, resolveList_eq_map]
    exact isNormal_generic (List.forall_mem_map.2 h)
  | custom => exact isNormal_external _ _
  | _ => exact TypeRef.isNormal_iff.2 ⟨trivial, nofun⟩

theorem isNormal_resolve (scope : Scope) (type : SourceType) :
    (scope.resolve type).IsNormal scope.config := by
  induction type using SourceType.inductionOnParts with
  | step type ih =>
    rw [resolve_eq]
    split
    · exact isNormal_named (isNormal_resolveParams ih)
    · exact isNormal_resolveKind ih

end Scope

/-! ## Sequences as arrays -/

namespace TypeRef

mutual

/-- The reference with every sequence in it as an array of rank one. -/
def sequencesAsArrays : TypeRef → TypeRef
  | named space name args => named space name (sequencesAsArraysList args)
  | array element rank => array (sequencesAsArrays element) rank
  | nullable inner => nullable (sequencesAsArrays inner)
  | tuple shape => tuple (sequencesAsArraysShape shape)
  | dictionary key value => dictionary (sequencesAsArrays key) (sequencesAsArrays value)
  | sequence element => array (sequencesAsArrays element) 1
  | type => type

def sequencesAsArraysList : List TypeRef → List TypeRef
  | [] => []
  | type :: types => sequencesAsArrays type :: sequencesAsArraysList types

def sequencesAsArraysShape : TupleShape TypeRef → TupleShape TypeRef
  | .last items => .last (sequencesAsArraysList items)
  | .more items rest => .more (sequencesAsArraysList items) (sequencesAsArraysShape rest)

end

@[simp]
theorem sequencesAsArraysList_eq_map (types : List TypeRef) :
    sequencesAsArraysList types = types.map sequencesAsArrays := by
  induction types with
  | nil => rfl
  | cons type types ih => simp [sequencesAsArraysList, ih]

@[simp]
theorem sequencesAsArraysShape_eq_map (shape : TupleShape TypeRef) :
    sequencesAsArraysShape shape = shape.map sequencesAsArrays := by
  induction shape with
  | last items => simp [sequencesAsArraysShape, TupleShape.map]
  | more items rest ih => simp [sequencesAsArraysShape, TupleShape.map, ih]

theorem children_sequencesAsArrays (type : TypeRef) :
    type.sequencesAsArrays.children = type.children.map sequencesAsArrays := by
  cases type <;> simp [sequencesAsArrays, children]

/-- Node by node, only sequences are replaced. -/
theorem nodes_sequencesAsArrays (type : TypeRef) :
    type.sequencesAsArrays.nodes = type.nodes.map sequencesAsArrays := by
  induction type using inductionOnChildren with
  | step type ih =>
    rw [nodes_eq, nodes_eq type, children_sequencesAsArrays, List.map_cons, List.map_flatMap,
      List.flatMap_map]
    congr 1
    exact List.flatMap_congr ih

theorem sequencesAsArrays_orNull (type : TypeRef) :
    type.orNull.sequencesAsArrays = type.sequencesAsArrays.orNull := by
  cases type <;> simp [orNull, sequencesAsArrays]

theorem sequencesAsArrays_reference (known : WellKnown) :
    known.reference.sequencesAsArrays = known.reference := by
  cases known <;> simp [WellKnown.reference, sequencesAsArrays]

/-- A dictionary stays one, and no other node becomes one. -/
theorem sequencesAsArrays_eq_dictionary_iff {type key value : TypeRef} :
    type.sequencesAsArrays = dictionary key value ↔ ∃ key' value',
      type = dictionary key' value' ∧ key'.sequencesAsArrays = key ∧
        value'.sequencesAsArrays = value := by
  cases type <;> simp [sequencesAsArrays]

end TypeRef

namespace Scope

/-- The same scope with the setting for sequences as given. -/
def withSequenceToArray (scope : Scope) (setting : Bool) : Scope :=
  { scope with config := { scope.config with sequenceToArray := setting } }

theorem externalGeneric_sequencesAsArrays (name : String) (args : List TypeRef) :
    externalGeneric name (args.map TypeRef.sequencesAsArrays) =
      (externalGeneric name args).sequencesAsArrays := by
  unfold externalGeneric
  cases hknown : WellKnown.ofName? name with
  | none => simp [TypeRef.sequencesAsArrays]
  | some known =>
    cases known <;> rcases args with _ | ⟨first, _ | ⟨second, rest⟩⟩ <;>
      simp [TypeRef.sequencesAsArrays_reference]

theorem generic_sequencesAsArrays {on off : Config} (hon : on.sequenceToArray = true)
    (hoff : off.sequenceToArray = false) (name : String) (family : GenericFamily)
    (args : List TypeRef) :
    generic on name family (args.map TypeRef.sequencesAsArrays) =
      (generic off name family args).sequencesAsArrays := by
  have houtside := externalGeneric_sequencesAsArrays name args
  cases family with
  | custom => exact houtside
  | nullable =>
    rcases args with _ | ⟨inner, _ | ⟨second, rest⟩⟩
    · exact houtside
    · exact (TypeRef.sequencesAsArrays_orNull inner).symm
    · exact houtside
  | tuple =>
    cases args with
    | nil => exact houtside
    | cons first rest =>
      rw [generic, TypeRef.sequencesAsArrays, TypeRef.sequencesAsArraysShape_eq_map,
        ← TupleShape.fold_map]
      rfl
  | dictionary =>
    rcases args with _ | ⟨key, _ | ⟨value, _ | ⟨third, rest⟩⟩⟩
    · exact houtside
    · exact houtside
    · rfl
    · exact houtside
  | deferred =>
    rcases args with _ | ⟨inner, _ | ⟨second, rest⟩⟩
    · rfl
    · rfl
    · exact houtside
  | sequence =>
    rcases args with _ | ⟨element, _ | ⟨second, rest⟩⟩
    · exact houtside
    · simp [generic, hon, hoff, TypeRef.sequencesAsArrays]
    · exact houtside

variable {on off : Scope} {type : SourceType}

theorem resolveParams_sequencesAsArrays
    (h : ∀ part ∈ type.parts, on.resolve part = (off.resolve part).sequencesAsArrays) :
    on.resolveParams type.typeParams type.kind =
      (off.resolveParams type.typeParams type.kind).map TypeRef.sequencesAsArrays := by
  rw [resolveParams_eq, resolveParams_eq]
  split
  · simp [TypeRef.sequencesAsArrays]
  · rw [List.map_map]
    exact List.map_congr_left fun arg harg ↦ h arg (type.args_subset_parts harg)

theorem resolveKind_sequencesAsArrays (hon : on.config.sequenceToArray = true)
    (hoff : off.config.sequenceToArray = false)
    (h : ∀ part ∈ type.parts, on.resolve part = (off.resolve part).sequencesAsArrays) :
    on.resolveKind type.name type.kind =
      (off.resolveKind type.name type.kind).sequencesAsArrays := by
  unfold SourceType.parts at h
  cases hkind : type.kind with
  | array rank element =>
    rw [hkind] at h
    rw [resolveKind, resolveKind, TypeRef.sequencesAsArrays, h element List.mem_cons_self]
  | generic family args =>
    rw [hkind] at h
    rw [resolveKind, resolveKind, resolveList_eq_map, resolveList_eq_map,
      ← generic_sequencesAsArrays hon hoff, List.map_map]
    congr 1
    exact List.map_congr_left h
  | custom =>
    rw [resolveKind, resolveKind, external]
    split
    · exact (TypeRef.sequencesAsArrays_reference _).symm
    · simp [TypeRef.sequencesAsArrays]
  | _ => rfl

/-- Resolving with sequences as arrays is resolving without, and then replacing the sequences. -/
theorem resolve_withSequenceToArray (scope : Scope) (type : SourceType) :
    (scope.withSequenceToArray true).resolve type =
      ((scope.withSequenceToArray false).resolve type).sequencesAsArrays := by
  induction type using SourceType.inductionOnParts with
  | step type ih =>
    have hregistry : (scope.withSequenceToArray true).registry =
        (scope.withSequenceToArray false).registry := rfl
    have hspace : (scope.withSequenceToArray true).config.targetSpace type.space =
        (scope.withSequenceToArray false).config.targetSpace type.space := rfl
    rw [resolve_eq, resolve_eq, hregistry, hspace]
    split
    · rw [TypeRef.sequencesAsArrays, TypeRef.sequencesAsArraysList_eq_map,
        resolveParams_sequencesAsArrays ih]
    · exact resolveKind_sequencesAsArrays rfl rfl ih

/-- Every resolved reference is in normal form. The setting for sequences replaces those that the
reference has without it by arrays of rank one, at any depth, and leaves all other nodes in their
places; dictionaries in particular stay dictionaries. -/
theorem resolve_normal_form (scope : Scope) (type : SourceType) :
    (scope.resolve type).IsNormal scope.config ∧
    (scope.withSequenceToArray true).resolve type =
      ((scope.withSequenceToArray false).resolve type).sequencesAsArrays ∧
    ((scope.withSequenceToArray true).resolve type).nodes =
      ((scope.withSequenceToArray false).resolve type).nodes.map TypeRef.sequencesAsArrays ∧
    ∀ key value : TypeRef,
      .dictionary key value ∈ ((scope.withSequenceToArray true).resolve type).nodes ↔
        ∃ key' value', .dictionary key' value' ∈
            ((scope.withSequenceToArray false).resolve type).nodes ∧
          key'.sequencesAsArrays = key ∧ value'.sequencesAsArrays = value := by
  have hresolve := resolve_withSequenceToArray scope type
  have hnodes := TypeRef.nodes_sequencesAsArrays ((scope.withSequenceToArray false).resolve type)
  rw [← hresolve] at hnodes
  refine ⟨isNormal_resolve scope type, hresolve, hnodes, ?_⟩
  intro key value
  rw [hnodes, List.mem_map]
  constructor
  · intro hexists
    obtain ⟨node, hnode, hdictionary⟩ := hexists
    obtain ⟨key', value', rfl, hkey, hvalue⟩ :=
      TypeRef.sequencesAsArrays_eq_dictionary_iff.1 hdictionary
    exact ⟨key', value', hnode, hkey, hvalue⟩
  · intro hexists
    obtain ⟨key', value', hnode, hkey, hvalue⟩ := hexists
    exact ⟨_, hnode,
      TypeRef.sequencesAsArrays_eq_dictionary_iff.2 ⟨key', value', rfl, hkey, hvalue⟩⟩

end Scope

end TypedClient
