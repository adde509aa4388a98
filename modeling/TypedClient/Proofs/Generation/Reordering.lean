import TypedClient.Proofs.Generation.Account
import TypedClient.Proofs.Scope.Alike
import TypedClient.Rendering.Files

/-!
# Documents in another order

A run does not depend on the order of a document beyond the order of the
operations inside each container. In any other order of types and operations it
succeeds as well, with the same client, the same files and the same warnings,
which may come in another order.
-/

namespace TypedClient

/-- The same document in another order, in which every container has its operations in the same
order. No two types share their name, and no two pending ones are declared as the same. -/
structure Metadata.Reordered (config : Config) (left right : Metadata) : Prop where
  types : left.types.Perm right.types
  names_nodup : (left.types.map SourceType.name).Nodup
  declared_nodup : ((SourceType.pending left.types).map (·.declaredAs config)).Nodup
  operations : left.operations.Perm right.operations
  seated : ∀ seat,
    (left.operations.filter (·.verb.isSupported)).filter (·.seat config = seat) =
      (right.operations.filter (·.verb.isSupported)).filter (·.seat config = seat)

namespace SourceType

variable {left right : List SourceType}

theorem perm_firsts (hperm : left.Perm right) (hnodup : (left.map SourceType.name).Nodup) :
    (Ordered.firstsBy SourceType.name left).Perm (Ordered.firstsBy SourceType.name right) := by
  rwa [Ordered.firstsBy_eq_self hnodup,
    Ordered.firstsBy_eq_self ((hperm.map SourceType.name).nodup_iff.1 hnodup)]

theorem perm_pending (hperm : left.Perm right) (hnodup : (left.map SourceType.name).Nodup) :
    (pending left).Perm (pending right) :=
  (perm_firsts hperm hnodup).filter _

theorem perm_undeclared (hperm : left.Perm right) (hnodup : (left.map SourceType.name).Nodup) :
    (undeclared left).Perm (undeclared right) :=
  (perm_firsts hperm hnodup).filterMap _

end SourceType

theorem Metadata.Reordered.symm {config : Config} {left right : Metadata}
    (h : left.Reordered config right) : right.Reordered config left where
  types := h.types.symm
  names_nodup := (h.types.map _).nodup_iff.1 h.names_nodup
  declared_nodup :=
    ((SourceType.perm_pending h.types h.names_nodup).map _).nodup_iff.1 h.declared_nodup
  operations := h.operations.symm
  seated := fun seat ↦ (h.seated seat).symm

namespace Generation

variable {filter : MemberFilter} {config : Config} {docs : DocSource} {left right : Metadata}
  {scope : Scope}

/-! ## Operations -/

theorem compileAll_eq_of_alike {other : Scope} (h : scope.Alike other)
    (operations : List Operation) :
    compileAll scope docs operations = compileAll other docs operations := by
  induction operations with
  | nil => rfl
  | cons operation operations ih => rw [compileAll, compileAll, h.compile_eq, h.config_eq, ih]

/-- An operation is placed in one way only. -/
theorem rightUnique_place (scope : Scope) (docs : DocSource) :
    Relator.RightUnique fun operation placed ↦
      operation.compile scope docs = .ok (.compiled placed.function) ∧
        placed = place scope.config operation placed.function := by
  intro operation placed other hplaced hother
  have hcompile := hplaced.1.symm.trans hother.1
  injection hcompile with hcompiled
  injection hcompiled with hfunction
  rw [hplaced.2, hother.2, hfunction]

theorem filter_seat_of_compileAll {functions others : List Placed}
    {skipped otherSkipped : List Diagnostic}
    (hleft : compileAll scope docs left.operations = .ok (functions, skipped))
    (hright : compileAll scope docs right.operations = .ok (others, otherSkipped))
    {seat : String × String}
    (hseat : (left.operations.filter (·.verb.isSupported)).filter (·.seat scope.config = seat) =
      (right.operations.filter (·.verb.isSupported)).filter (·.seat scope.config = seat)) :
    functions.filter (·.seat scope.config = seat) = others.filter (·.seat scope.config = seat) := by
  have hfunctions := forall₂_seat_of_compileAll hleft seat
  rw [hseat] at hfunctions
  exact (rightUnique_place scope docs).forall₂ hfunctions (forall₂_seat_of_compileAll hright seat)

theorem perm_skipped_of_compileAll {functions others : List Placed}
    {skipped otherSkipped : List Diagnostic}
    (hleft : compileAll scope docs left.operations = .ok (functions, skipped))
    (hright : compileAll scope docs right.operations = .ok (others, otherSkipped))
    (hperm : left.operations.Perm right.operations) : skipped.Perm otherSkipped := by
  rw [(forall₂_of_compileAll hleft).2, (forall₂_of_compileAll hright).2]
  exact (hperm.filter _).map _

/-! ## Whole documents -/

theorem alike_scopeOf (h : left.Reordered config right) :
    (scopeOf config left.types).Alike (scopeOf config right.types) := by
  have hperm : (scopeOf config left.types).registry.types.Perm
      (scopeOf config right.types).registry.types := by
    rw [scopeOf_types, scopeOf_types]
    exact SourceType.perm_pending h.types h.names_nodup
  exact Scope.alike_of_perm rfl hperm

theorem assembled_eq (h : left.Reordered config right) {functions others : List Placed}
    (hseat : ∀ seat,
      functions.filter (·.seat config = seat) = others.filter (·.seat config = seat)) :
    assembled filter config docs left functions = assembled filter config docs right others := by
  let scope := scopeOf config left.types
  have hperm : (Client.declarations scope filter docs (SourceType.pending left.types)).Perm
      (Client.declarations (scopeOf config right.types) filter docs
        (SourceType.pending right.types)) := by
    rw [Client.declarations, Client.declarations, (alike_scopeOf h).declare?_eq]
    exact (SourceType.perm_pending h.types h.names_nodup).filterMap _
  have hnames : (Client.declarations scope filter docs (SourceType.pending left.types)).map
      (fun pair ↦ (config.targetSpace pair.1, pair.2.name)) =
        (SourceType.pending left.types).map (·.declaredAs config) :=
    Client.map_declarations_pending (fun _ _ ↦ rfl) _
  exact Client.build_congr hperm (hnames ▸ h.declared_nodup) hseat

/-- Where one document succeeds, so does the other, with the same client. -/
theorem exists_runWith_of_reordered (h : left.Reordered config right) {first : Generation}
    (hrun : runWith filter config docs left = .ok first) :
    ∃ second, runWith filter config docs right = .ok second ∧
      first.client = second.client ∧ first.diagnostics.Perm second.diagnostics := by
  obtain ⟨functions, skipped, externals, hleft, hlink, rfl⟩ := runWith_eq_ok_iff.1 hrun
  rw [compileAll_eq_of_alike (alike_scopeOf h)] at hleft
  obtain ⟨⟨others, otherSkipped⟩, hright⟩ : ∃ result,
      compileAll (scopeOf config right.types) docs right.operations = .ok result := by
    rw [exists_compileAll_eq_ok_iff]
    intro operation hmem
    exact exists_compileAll_eq_ok_iff.1 ⟨_, hleft⟩ operation (h.operations.mem_iff.2 hmem)
  have hassembled : assembled filter config docs left functions =
      assembled filter config docs right others :=
    assembled_eq h fun seat ↦ filter_seat_of_compileAll hleft hright (h.seated seat)
  have hlinked : (assembled filter config docs left functions).linkBases
        (scopeOf config left.types) =
      (assembled filter config docs right others).linkBases (scopeOf config right.types) := by
    rw [hassembled, (alike_scopeOf h).linkBases_eq]
  have hexternals : ((assembled filter config docs right others).link
      (scopeOf config right.types)).2 = .ok externals := by
    rw [← hlink]
    exact congrArg Client.validate hlinked.symm
  refine ⟨_, runWith_eq_ok_iff.2 ⟨others, otherSkipped, externals, hright, hexternals, rfl⟩, ?_, ?_⟩
  · rw [hlinked]
  · rw [hlinked]
    apply List.Perm.append_right
    apply List.Perm.append_right
    exact (SourceType.perm_undeclared h.types h.names_nodup).append
      (perm_skipped_of_compileAll hleft hright h.operations)

/-- Two orders of a document succeed together, and with the same client, the same files and the
same warnings up to order. -/
theorem runWith_reordered (filter : MemberFilter) (config : Config) (docs : DocSource)
    (left right : Metadata) (h : left.Reordered config right) :
    ((∃ generation, runWith filter config docs left = .ok generation) ↔
      ∃ generation, runWith filter config docs right = .ok generation) ∧
    ∀ first second, runWith filter config docs left = .ok first →
      runWith filter config docs right = .ok second →
        first.client = second.client ∧
        first.diagnostics.Perm second.diagnostics ∧
        first.client.renderAll config = second.client.renderAll config := by
  refine ⟨⟨?_, ?_⟩, ?_⟩
  · intro hexists
    obtain ⟨first, hfirst⟩ := hexists
    obtain ⟨second, hsecond, -⟩ := exists_runWith_of_reordered h hfirst
    exact ⟨second, hsecond⟩
  · intro hexists
    obtain ⟨second, hsecond⟩ := hexists
    obtain ⟨first, hfirst, -⟩ := exists_runWith_of_reordered h.symm hsecond
    exact ⟨first, hfirst⟩
  · intro first second hfirst hsecond
    obtain ⟨found, hfound, hclient, hdiagnostics⟩ := exists_runWith_of_reordered h hfirst
    obtain rfl : found = second := Except.ok.inj (hfound.symm.trans hsecond)
    exact ⟨hclient, hdiagnostics, by rw [hclient]⟩

/-! ## A document in two orders -/

def basketType : SourceType :=
  { name := "Shop.Models.Basket", space := "Shop.Models", kind := .custom }

def giftBasketType : SourceType :=
  { name := "Shop.Models.GiftBasket"
    space := "Shop.Models"
    kind := .custom
    base := some basketType }

def countType : SourceType :=
  { name := "System.Int32", space := "System", kind := .primitive .int32 }

def nameType : SourceType :=
  { name := "System.String", space := "System", kind := .string }

def basketOperation (name : String) (verb : Verb) : Operation :=
  { name
    container := "Shop.BasketController"
    verb
    route := "basket"
    response := some basketType }

/-- The operations on baskets, one of them with a method that is not supported. -/
def basketOperations : List Operation :=
  [basketOperation "Get" .get, basketOperation "Trace" (.other "TRACE"),
    basketOperation "Put" .put]

def giftOperation : Operation :=
  { name := "Get", container := "Shop.GiftController", verb := .get, route := "gift" }

def basketMetadata : Metadata :=
  { types := [countType, basketType, giftBasketType, nameType]
    operations := basketOperations ++ [giftOperation] }

/-- The types in reverse, and the last operation in front of the others. -/
def shuffledMetadata : Metadata :=
  { types := [nameType, giftBasketType, basketType, countType]
    operations := [giftOperation] ++ basketOperations }

theorem reordered_basketMetadata : basketMetadata.Reordered {} shuffledMetadata where
  types := (List.reverse_perm basketMetadata.types).symm
  names_nodup := by decide
  declared_nodup := by decide
  operations := List.perm_append_comm
  seated := by
    intro seat
    by_cases hgift : giftOperation.seat {} = seat
    · subst hgift
      rfl
    · rw [basketMetadata, shuffledMetadata, List.filter_append, List.filter_append,
        List.filter_append, List.filter_append]
      have hnone : ([giftOperation].filter (·.verb.isSupported)).filter (·.seat {} = seat) = [] := by
        simp [hgift]
      rw [hnone, List.nil_append, List.append_nil]

theorem runWith_basketMetadata : basketMetadata.Reordered {} shuffledMetadata ∧
    ∃ first second, runWith CherryPick.all.filter {} ({} : Docs) basketMetadata = .ok first ∧
      runWith CherryPick.all.filter {} ({} : Docs) shuffledMetadata = .ok second ∧
      first.client = second.client ∧ first.diagnostics.Perm second.diagnostics ∧
      first.client.renderAll {} = second.client.renderAll {} := by
  obtain ⟨first, hfirst⟩ : ∃ generation,
      runWith CherryPick.all.filter {} ({} : Docs) basketMetadata = .ok generation := ⟨_, rfl⟩
  have houtcome := runWith_reordered CherryPick.all.filter {} ({} : Docs) _ _
    reordered_basketMetadata
  obtain ⟨second, hsecond⟩ := houtcome.1.1 ⟨first, hfirst⟩
  exact ⟨reordered_basketMetadata, first, second, hfirst, hsecond,
    houtcome.2 first second hfirst hsecond⟩

end Generation

end TypedClient
