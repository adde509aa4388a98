import TypedClient.Proofs.Client.Assembly
import TypedClient.Proofs.Client.Mention

/-!
# The outcome of linking

Linking succeeds exactly when every reference into the client, at any depth and
in any place, meets a declaration. It then reports the names from outside the
run, each once and in ascending order. Otherwise the error is that of the first
reference that misses, in the order of addresses.
-/

namespace TypedClient

namespace Mention

/-- The error of a single node. -/
def fault? (declared : List (String × String)) (node : Mention) : Option CompileError :=
  (node.type.dangling? declared).map (.danglingReference node.context)

theorem fault?_eq_some_iff {declared : List (String × String)} {node : Mention}
    {error : CompileError} :
    node.fault? declared = some error ↔ ∃ space name args,
      node.type = .named (some space) name args ∧ (space, name) ∉ declared ∧
        error = .danglingReference node.context (space ++ "." ++ name) := by
  obtain ⟨context, type⟩ := node
  rw [fault?, Option.map_eq_some_iff]
  constructor
  · intro hexists
    obtain ⟨reference, hreference, rfl⟩ := hexists
    simp only [TypeRef.dangling?] at hreference
    split at hreference
    · rename_i space name args
      split at hreference
      · contradiction
      · rename_i hmiss
        exact ⟨space, name, args, rfl, fun hmem ↦ hmiss (List.contains_iff_mem.2 hmem),
          by rw [← Option.some.inj hreference]⟩
    · contradiction
  · intro hexists
    obtain ⟨space, name, args, rfl, hmiss, rfl⟩ := hexists
    exact ⟨space ++ "." ++ name, if_neg fun hmem ↦ hmiss (List.contains_iff_mem.1 hmem), rfl⟩

theorem error?_eq_findSome? (declared : List (String × String)) (mention : Mention) :
    mention.error? declared = mention.nodes.findSome? (fault? declared) := by
  rw [error?, nodes, List.findSome?_map, List.map_findSome?]
  rfl

theorem mem_externals_iff {mention : Mention} {name : String} :
    name ∈ mention.externals ↔ ∃ args, Mention.mk mention.context (.named none name args) ∈
      mention.nodes := by
  simp only [externals, nodes, List.mem_filterMap, List.mem_map, Mention.mk.injEq, true_and]
  constructor
  · intro hexists
    obtain ⟨node, hnode, hexternal⟩ := hexists
    unfold TypeRef.external? at hexternal
    split at hexternal
    · rename_i other args
      obtain rfl := Option.some.inj hexternal
      exact ⟨args, _, hnode, rfl⟩
    · contradiction
  · intro hexists
    obtain ⟨args, node, hnode, rfl⟩ := hexists
    exact ⟨_, hnode, rfl⟩

end Mention

namespace Client

/-- A reference into the client stands at the address and meets no declaration. -/
def DanglesAt (client : Client) (address : Address) (context space name : String) : Prop :=
  (∃ args, client.at? address = some ⟨context, .named (some space) name args⟩) ∧
    ¬ ∃ declaration, client.Declares space declaration ∧ declaration.name = name

/-- Every reference into the client meets a declaration, wherever it stands. -/
def Closed (client : Client) : Prop :=
  ∀ address context space name, ¬ client.DanglesAt address context space name

theorem danglesAt_iff {client : Client} {address : Address} {error : CompileError} :
    (∃ node, client.at? address = some node ∧ node.fault? client.declared = some error) ↔
      ∃ context space name, client.DanglesAt address context space name ∧
        error = .danglingReference context (space ++ "." ++ name) := by
  simp only [DanglesAt, ← mem_declared_iff, Mention.fault?_eq_some_iff]
  constructor
  · intro hexists
    obtain ⟨⟨context, _⟩, hnode, space, name, args, rfl, hmiss, herror⟩ := hexists
    exact ⟨context, space, name, ⟨⟨args, hnode⟩, hmiss⟩, herror⟩
  · intro hexists
    obtain ⟨context, space, name, ⟨⟨args, hnode⟩, hmiss⟩, herror⟩ := hexists
    exact ⟨_, hnode, space, name, args, rfl, hmiss, herror⟩

theorem fault?_eq_none_iff {client : Client} {address : Address} :
    (∀ node, client.at? address = some node → node.fault? client.declared = none) ↔
      ∀ context space name, ¬ client.DanglesAt address context space name := by
  constructor
  · intro hnone context space name hdangles
    obtain ⟨node, hnode, hfault⟩ := danglesAt_iff.2 ⟨context, space, name, hdangles, rfl⟩
    rw [hnone node hnode] at hfault
    contradiction
  · intro hall node hnode
    cases hfault : node.fault? client.declared with
    | none => rfl
    | some error =>
      obtain ⟨context, space, name, hdangles, -⟩ := danglesAt_iff.1 ⟨node, hnode, hfault⟩
      exact absurd hdangles (hall context space name)

/-- Validation searches the client in the order of addresses. -/
theorem first_fault (client : Client) :
    Address.First client.at? (Mention.fault? client.declared)
      (client.mentions.findSome? (Mention.error? client.declared)) := by
  have hfirst := client.enumerates_mentions CompileError (Mention.fault? client.declared)
  rw [Address.findSome?_flatMap] at hfirst
  simpa only [← Mention.error?_eq_findSome?] using hfirst

theorem validate_eq_ok_iff {client : Client} {warnings : List Diagnostic} :
    client.validate = .ok warnings ↔
      client.Closed ∧ warnings = client.externals.map .externalReference := by
  have hfirst := client.first_fault
  unfold validate
  cases hfound : client.mentions.findSome? (Mention.error? client.declared) with
  | none =>
    rw [hfound] at hfirst
    have hclosed : client.Closed := fun address ↦ fault?_eq_none_iff.1 (hfirst address)
    simp only [Except.ok.injEq]
    exact ⟨fun h ↦ ⟨hclosed, h.symm⟩, fun h ↦ h.2.symm⟩
  | some error =>
    rw [hfound] at hfirst
    obtain ⟨address, node, hnode, hfault, -⟩ := hfirst
    obtain ⟨context, space, name, hdangles, -⟩ := danglesAt_iff.1 ⟨node, hnode, hfault⟩
    simp only [reduceCtorEq, false_iff, not_and]
    exact fun hall ↦ absurd hdangles (hall address context space name)

theorem exists_danglesAt_of_validate {client : Client} {error : CompileError}
    (h : client.validate = .error error) :
    ∃ address context space name, client.DanglesAt address context space name ∧
      error = .danglingReference context (space ++ "." ++ name) ∧
      ∀ earlier < address, ∀ context space name,
        ¬ client.DanglesAt earlier context space name := by
  have hfirst := client.first_fault
  unfold validate at h
  cases hfound : client.mentions.findSome? (Mention.error? client.declared) with
  | none =>
    rw [hfound] at h
    contradiction
  | some found =>
    rw [hfound] at h hfirst
    obtain rfl := Except.error.inj h
    obtain ⟨address, node, hnode, hfault, hearlier⟩ := hfirst
    obtain ⟨context, space, name, hdangles, herror⟩ := danglesAt_iff.1 ⟨node, hnode, hfault⟩
    exact ⟨address, context, space, name, hdangles, herror,
      fun earlier hlt ↦ fault?_eq_none_iff.1 (hearlier earlier hlt)⟩

theorem mem_externals_iff {client : Client} {name : String} :
    name ∈ client.externals ↔
      ∃ address context args, client.at? address = some ⟨context, .named none name args⟩ := by
  simp only [externals, Ordered.mem_ascending, List.mem_flatMap, Mention.mem_externals_iff]
  have hmem (node : Mention) :
      (∃ mention ∈ client.mentions, node ∈ mention.nodes) ↔
        ∃ address, client.at? address = some node := by
    rw [← client.enumerates_mentions.mem_iff, List.mem_flatMap]
  constructor
  · intro hexists
    obtain ⟨mention, hmention, args, hnode⟩ := hexists
    obtain ⟨address, hat⟩ := (hmem _).1 ⟨mention, hmention, hnode⟩
    exact ⟨address, _, args, hat⟩
  · intro hexists
    obtain ⟨address, context, args, hat⟩ := hexists
    obtain ⟨mention, hmention, hnode⟩ := (hmem _).2 ⟨address, hat⟩
    obtain ⟨node, -, hmk⟩ := List.mem_map.1 hnode
    have hcontext : mention.context = context := congrArg Mention.context hmk
    subst hcontext
    exact ⟨mention, hmention, args, hnode⟩

theorem exists_link_eq_ok_iff {scope : Scope} {client : Client} :
    (∃ warnings, (client.link scope).2 = .ok warnings) ↔ (client.linkBases scope).Closed := by
  have hresult : (client.link scope).2 = (client.linkBases scope).validate := rfl
  simp only [hresult, validate_eq_ok_iff, exists_and_left, exists_eq, and_true]

/-- Success, warnings and error of linking, told by what stands at the addresses of the client
once its bases are linked. -/
theorem link_outcome (scope : Scope) (client : Client) :
    (client.link scope).1 = client.linkBases scope ∧
    ((∃ warnings, (client.link scope).2 = .ok warnings) ↔ (client.linkBases scope).Closed) ∧
    (∀ warnings, (client.link scope).2 = .ok warnings →
      ∃ names : List String, warnings = names.map .externalReference ∧
        names.Pairwise (· < ·) ∧
        ∀ name, name ∈ names ↔ ∃ address context args,
          (client.linkBases scope).at? address = some ⟨context, .named none name args⟩) ∧
    ∀ error, (client.link scope).2 = .error error →
      ∃ address context space name,
        (client.linkBases scope).DanglesAt address context space name ∧
        error = .danglingReference context (space ++ "." ++ name) ∧
        ∀ earlier < address, ∀ context space name,
          ¬ (client.linkBases scope).DanglesAt earlier context space name := by
  have hresult : (client.link scope).2 = (client.linkBases scope).validate := rfl
  refine ⟨rfl, exists_link_eq_ok_iff, ?_, ?_⟩
  · intro warnings hwarnings
    rw [hresult] at hwarnings
    have hnames := (validate_eq_ok_iff.1 hwarnings).2
    exact ⟨_, hnames, Ordered.pairwise_ascending _, fun name ↦ mem_externals_iff⟩
  · intro error herror
    rw [hresult] at herror
    exact exists_danglesAt_of_validate herror

end Client

end TypedClient
