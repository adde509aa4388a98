import TypedClient.Proofs.Client.Inheritance
import TypedClient.Proofs.Scope.Alike

/-!
# What linking changes

Linking sets the namespace and the name that the bases of the run point at, and
nothing else: a client that is linked and one that is not are the same once
these are forgotten. Where a base points afterwards depends on its source type
alone. So the linked client is told by what it keeps and where its bases point,
whether or not a reference in it dangles, and linking it again does nothing.
-/

namespace TypedClient

/-! ## Changing the bases of a client -/

/-- The declaration with its base changed, if it is a record that has one. -/
def Declaration.mapBase (change : Base → Base) (declaration : Declaration) : Declaration :=
  match declaration.shape with
  | .record record =>
    { declaration with shape := .record { record with base := record.base.map change } }
  | .enumeration _ => declaration

namespace Declaration

variable {declaration : Declaration}

theorem mapBase_mapBase (first second : Base → Base) (declaration : Declaration) :
    (declaration.mapBase first).mapBase second = declaration.mapBase (second ∘ first) := by
  obtain ⟨name, sourceName, doc, shape⟩ := declaration
  cases shape with
  | record record => simp [mapBase]
  | enumeration _ => rfl

theorem base?_mapBase (change : Base → Base) (declaration : Declaration) :
    (declaration.mapBase change).base? = declaration.base?.map change := by
  obtain ⟨name, sourceName, doc, shape⟩ := declaration
  cases shape with
  | record record => rfl
  | enumeration _ => rfl

theorem mapBase_eq_self {change : Base → Base}
    (h : ∀ base, declaration.base? = some base → change base = base) :
    declaration.mapBase change = declaration := by
  obtain ⟨name, sourceName, doc, shape⟩ := declaration
  cases shape with
  | record record =>
    obtain ⟨typeParams, fields, base⟩ := record
    cases base with
    | none => rfl
    | some base => simp [mapBase, h base rfl]
  | enumeration _ => rfl

end Declaration

namespace Client

/-- The client with every base changed and everything else as it is. -/
def mapBases (change : Base → Base) (client : Client) : Client :=
  client.map fun group ↦
    { group with declarations := group.declarations.map (Declaration.mapBase change) }

def bases (client : Client) : List Base :=
  client.flatMap fun group ↦ group.declarations.filterMap Declaration.base?

variable {client : Client}

theorem mapBases_mapBases (first second : Base → Base) (client : Client) :
    (client.mapBases first).mapBases second = client.mapBases (second ∘ first) := by
  simp [mapBases, Function.comp_def, Declaration.mapBase_mapBase]

theorem bases_mapBases (change : Base → Base) (client : Client) :
    (client.mapBases change).bases = client.bases.map change := by
  simp [bases, mapBases, List.flatMap_map, List.map_flatMap, List.filterMap_map,
    List.map_filterMap, Declaration.base?_mapBase]

theorem mapBases_eq_self {change : Base → Base} (h : ∀ base ∈ client.bases, change base = base) :
    client.mapBases change = client := by
  refine (List.map_congr_left ?_).trans (List.map_id client)
  intro group hgroup
  have hdeclarations : group.declarations.map (Declaration.mapBase change) = group.declarations := by
    refine (List.map_congr_left ?_).trans (List.map_id _)
    intro declaration hdeclaration
    refine Declaration.mapBase_eq_self fun base hbase ↦ h base ?_
    exact List.mem_flatMap.2 ⟨group, hgroup, List.mem_filterMap.2 ⟨declaration, hdeclaration, hbase⟩⟩
  rw [hdeclarations]
  rfl

theorem linkBases_eq_mapBases (scope : Scope) (client : Client) :
    client.linkBases scope = client.mapBases (Base.link scope) := rfl

end Client

/-! ## A single base -/

namespace Base

variable {scope : Scope} {base : Base}

/-- The base with the namespace and the name of a named target as given. -/
def address (space : Option String) (name : String) (base : Base) : Base :=
  match base.target with
  | .named _ _ args => { base with target := .named space name args }
  | _ => base

/-- The base belongs to the run: its type is registered, or its namespace is one of the run. -/
def inRun (scope : Scope) (base : Base) : Bool :=
  scope.registry.contains base.sourceName || scope.registry.containsSpace base.sourceSpace

/-- A base of the run without the namespace and the name that it points at. -/
def unaddressed (scope : Scope) (base : Base) : Base :=
  if base.inRun scope then base.address none "" else base

/-- A base of the run points where its source type belongs, if its target is a named one. -/
def IsPlaced (scope : Scope) (base : Base) : Prop :=
  ∀ home, base.target? scope = some home →
    ∀ space name args, base.target = .named space name args → space = some home.1 ∧ name = home.2

theorem address_address (space space' : Option String) (name name' : String) (base : Base) :
    (base.address space name).address space' name' = base.address space' name' := by
  obtain ⟨sourceName, sourceSpace, target⟩ := base
  cases target <;> rfl

theorem target?_address (scope : Scope) (space : Option String) (name : String) (base : Base) :
    (base.address space name).target? scope = base.target? scope := by
  obtain ⟨sourceName, sourceSpace, target⟩ := base
  cases target <;> rfl

theorem target_address {space space' : Option String} {name name' : String} {args : List TypeRef}
    (h : (base.address space name).target = .named space' name' args) :
    space' = space ∧ name' = name := by
  obtain ⟨sourceName, sourceSpace, target⟩ := base
  cases target with
  | named =>
    obtain ⟨rfl, rfl, -⟩ := TypeRef.named.inj h
    exact ⟨rfl, rfl⟩
  | _ => contradiction

theorem address_eq_self {space : Option String} {name : String}
    (h : ∀ space' name' args, base.target = .named space' name' args →
      space' = space ∧ name' = name) : base.address space name = base := by
  obtain ⟨sourceName, sourceSpace, target⟩ := base
  cases target with
  | named space' name' args =>
    obtain ⟨rfl, rfl⟩ := h space' name' args rfl
    rfl
  | _ => rfl

theorem isSome_target? (scope : Scope) (base : Base) :
    (base.target? scope).isSome = base.inRun scope := by
  rw [target?, inRun, Registry.contains_eq_isSome_get?]
  cases scope.registry.get? base.sourceName with
  | some type => rfl
  | none => cases scope.registry.containsSpace base.sourceSpace <;> rfl

theorem link_eq (scope : Scope) (base : Base) : base.link scope =
    match base.target? scope with
    | some home => base.address (some home.1) home.2
    | none => base := by
  rw [link]
  cases base.target? scope with
  | none => rfl
  | some home =>
    obtain ⟨sourceName, sourceSpace, target⟩ := base
    cases target <;> rfl

theorem unaddressed_eq (scope : Scope) (base : Base) : base.unaddressed scope =
    match base.target? scope with
    | some _ => base.address none ""
    | none => base := by
  rw [unaddressed, ← isSome_target?]
  cases base.target? scope <;> rfl

theorem unaddressed_link (scope : Scope) (base : Base) :
    (base.link scope).unaddressed scope = base.unaddressed scope := by
  rw [link_eq, unaddressed_eq scope base]
  cases hhome : base.target? scope with
  | none => simp only [unaddressed_eq, hhome]
  | some home => simp only [unaddressed_eq, target?_address, hhome, address_address]

theorem link_unaddressed (scope : Scope) (base : Base) :
    (base.unaddressed scope).link scope = base.link scope := by
  rw [unaddressed_eq, link_eq scope base]
  cases hhome : base.target? scope with
  | none => simp only [link_eq, hhome]
  | some home => simp only [link_eq, target?_address, hhome, address_address]

theorem isPlaced_link (scope : Scope) (base : Base) : (base.link scope).IsPlaced scope := by
  intro home hhome space name args htarget
  rw [link_eq] at hhome htarget
  cases hbase : base.target? scope with
  | none =>
    simp only [hbase] at hhome
    contradiction
  | some place =>
    simp only [hbase, target?_address] at hhome htarget
    obtain rfl := Option.some.inj hhome
    exact target_address htarget

theorem IsPlaced.link_eq_self (h : base.IsPlaced scope) : base.link scope = base := by
  rw [link_eq]
  cases hhome : base.target? scope with
  | none => rfl
  | some home => exact address_eq_self (h home hhome)

end Base

/-! ## Linking a client -/

namespace Client

variable {scope : Scope} {client rewritten : Client}

/-- What a client keeps and where its bases point tell the linked client. -/
theorem eq_linkBases_iff : rewritten = client.linkBases scope ↔
    rewritten.mapBases (Base.unaddressed scope) = client.mapBases (Base.unaddressed scope) ∧
      ∀ base ∈ rewritten.bases, base.IsPlaced scope := by
  have hforget : Base.unaddressed scope ∘ Base.link scope = Base.unaddressed scope :=
    funext (Base.unaddressed_link scope)
  have hlink : Base.link scope ∘ Base.unaddressed scope = Base.link scope :=
    funext (Base.link_unaddressed scope)
  rw [linkBases_eq_mapBases]
  constructor
  · rintro rfl
    rw [mapBases_mapBases, hforget, bases_mapBases]
    exact ⟨rfl, List.forall_mem_map.2 fun base _ ↦ Base.isPlaced_link scope base⟩
  · intro h
    obtain ⟨hkept, hplaced⟩ := h
    calc
      rewritten = rewritten.mapBases (Base.link scope) :=
        (mapBases_eq_self fun base hbase ↦ (hplaced base hbase).link_eq_self).symm
      _ = (rewritten.mapBases (Base.unaddressed scope)).mapBases (Base.link scope) := by
        rw [mapBases_mapBases, hlink]
      _ = client.mapBases (Base.link scope) := by rw [hkept, mapBases_mapBases, hlink]

theorem linkBases_linkBases (scope : Scope) (client : Client) :
    (client.linkBases scope).linkBases scope = client.linkBases scope := by
  have hplaced := (eq_linkBases_iff.1 (Eq.refl (client.linkBases scope))).2
  exact mapBases_eq_self fun base hbase ↦ (hplaced base hbase).link_eq_self

/-- Linking keeps everything but the namespaces and names that bases of the run point at, and it
sets these; no more needs to be known of the linked client, whatever the outcome is and whatever
stands beside it. A client that is linked stays as it is when it is linked again, with the same
warnings or the same error. -/
theorem link_readdresses_bases (scope : Scope) (client : Client) :
    (∀ rewritten outcome, client.link scope = (rewritten, outcome) ↔
      rewritten.mapBases (Base.unaddressed scope) = client.mapBases (Base.unaddressed scope) ∧
        (∀ base ∈ rewritten.bases, base.IsPlaced scope) ∧ rewritten.validate = outcome) ∧
    (∀ other : Client,
      ((client ++ other).link scope).1 = (client.link scope).1 ++ (other.link scope).1) ∧
    (client.link scope).1.link scope = client.link scope := by
  refine ⟨?_, fun other ↦ List.map_append, ?_⟩
  · intro rewritten outcome
    rw [← and_assoc, ← eq_linkBases_iff, link, Prod.mk.injEq]
    constructor
    · rintro ⟨rfl, rfl⟩
      exact ⟨rfl, rfl⟩
    · rintro ⟨rfl, rfl⟩
      exact ⟨rfl, rfl⟩
  · have hagain := linkBases_linkBases scope client
    rw [link, link, hagain]

end Client

end TypedClient
