import TypedClient.SourceType

/-!
# Types declared in a run

The registry holds the source types a run declares, in the order they were
entered, and an index of their namespaces. A qualified name is entered once: the
first descriptor stays, and a repetition has no effect at all, not even through
its namespace.
-/

namespace TypedClient

structure Registry where
  types : List SourceType := []
  /-- The namespaces that a type has brought in. -/
  spaces : List String := []
  names_nodup : (types.map SourceType.name).Nodup := by simp
  mem_spaces_iff : ∀ space, space ∈ spaces ↔ ∃ type ∈ types, type.space = space := by simp

namespace Registry

def get? (registry : Registry) (name : String) : Option SourceType :=
  registry.types.find? (·.name = name)

def contains (registry : Registry) (name : String) : Bool :=
  registry.types.any (·.name = name)

def containsSpace (registry : Registry) (space : String) : Bool :=
  space ∈ registry.spaces

def size (registry : Registry) : Nat :=
  registry.types.length

theorem contains_eq_false {registry : Registry} {name : String} :
    registry.contains name = false ↔ name ∉ registry.types.map SourceType.name := by
  simp [contains]

def insert (registry : Registry) (type : SourceType) : Registry :=
  if h : registry.contains type.name then registry
  else
    { types := registry.types ++ [type]
      spaces := registry.spaces.insert type.space
      names_nodup := by
        have hnew := contains_eq_false.1 (Bool.eq_false_iff.2 h)
        rw [List.map_append, List.nodup_append]
        refine ⟨registry.names_nodup, by simp, ?_⟩
        intro name hname other hother heq
        simp only [List.map_cons, List.map_nil, List.mem_singleton] at hother
        exact hnew (hother ▸ heq ▸ hname)
      mem_spaces_iff := by
        intro space
        simp [registry.mem_spaces_iff, or_comm, eq_comm] }

/-- Enters the types one after the other. -/
def register (registry : Registry) (types : List SourceType) : Registry :=
  types.foldl insert registry

def ofList (types : List SourceType) : Registry :=
  register {} types

end Registry

end TypedClient
