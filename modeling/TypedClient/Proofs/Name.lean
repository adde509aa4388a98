import TypedClient.Name

/-!
# Names that short names tell apart

A short name forgets the namespace, the count of type parameters and the
nesting. Among plain names, which have neither of these marks and lie in their
namespace, nothing is forgotten: the short name and the namespace give the
qualified name back.
-/

namespace TypedClient.Name

/-- The name lies in the namespace: behind it and a dot, or without any dot in the empty one. -/
def LiesIn (qualified space : List Char) : Prop :=
  if space = [] then '.' ∉ qualified else (space ++ ['.']) <+: qualified

structure Plain (qualified space : String) : Prop where
  arity : '\x60' ∉ qualified.toList
  nesting : '+' ∉ qualified.toList
  inside : LiesIn qualified.toList space.toList

/-- The qualified name of a local name. -/
def qualify (space inner : List Char) : List Char :=
  if space = [] then inner else space ++ '.' :: inner

theorem mem_qualify {space inner : List Char} {c : Char} (h : c ∈ inner) :
    c ∈ qualify space inner := by
  unfold qualify
  split
  · exact h
  · exact List.mem_append_right _ (List.mem_cons_of_mem _ h)

theorem qualify_localChars {qualified space : List Char} (h : LiesIn qualified space) :
    qualify space (localChars qualified space) = qualified := by
  by_cases hspace : space = []
  · rw [LiesIn, if_pos hspace] at h
    cases hsplit : splitAtLastDot? qualified with
    | none => simp [qualify, localChars, hspace, hsplit]
    | some parts =>
      have hdot : '.' ∈ qualified := by
        rw [eq_append_of_splitAtLastDot? hsplit]
        exact List.mem_append_right _ List.mem_cons_self
      exact absurd hdot h
  · rw [LiesIn, if_neg hspace] at h
    obtain ⟨inner, rfl⟩ := h
    have hlocal : localChars (space ++ ['.'] ++ inner) space = inner := by
      rw [localChars, if_neg hspace, Text.dropLead?_append, Option.getD_some]
    rw [hlocal, qualify, if_neg hspace, List.append_assoc, List.singleton_append]

theorem flattenNesting_eq_self {name : List Char} (h : '+' ∉ name) :
    flattenNesting name = name := by
  have hkeep : ∀ c ∈ name, (if c = '+' then '_' else c) = c := by
    intro c hc
    have hc : c ≠ '+' := ne_of_mem_of_not_mem hc h
    exact if_neg hc
  rw [flattenNesting, List.map_congr_left hkeep, List.map_id']

theorem Plain.qualify_short {qualified space : String} (h : Plain qualified space) :
    qualify space.toList (short qualified space).toList = qualified.toList := by
  have hlocal := qualify_localChars h.inside
  have hmarks : ∀ c ∈ localChars qualified.toList space.toList, c ∈ qualified.toList := by
    intro c hc
    rw [← hlocal]
    exact mem_qualify hc
  rw [short, shortChars, String.toList_ofList, stripArityChars,
    stripArityFrom_eq_self fun hmem ↦ h.arity (hmarks _ hmem),
    flattenNesting_eq_self fun hmem ↦ h.nesting (hmarks _ hmem)]
  exact hlocal

theorem Plain.eq_of_short_eq {left right space : String} (hleft : Plain left space)
    (hright : Plain right space) (h : short left space = short right space) : left = right := by
  apply String.toList_injective
  rw [← hleft.qualify_short, h, hright.qualify_short]

end TypedClient.Name
