/-!
# Addresses

What is held at nested places is found by an address, which says at every level
which child to take. Addresses are compared lexicographically: a place comes
before everything below it, and what lies below a child before what lies below
the later ones. A list enumerates what is held when a search along the list
always ends with what it finds at the least address.
-/

namespace TypedClient

abbrev Address := List Nat

namespace Address

variable {α β γ : Type}

/-- The result is found at the least address at which the search finds anything. -/
def First (at? : Address → Option α) (search : α → Option β) : Option β → Prop
  | some found => ∃ address x, at? address = some x ∧ search x = some found ∧
      ∀ earlier < address, ∀ y, at? earlier = some y → search y = none
  | none => ∀ address x, at? address = some x → search x = none

def Enumerates (xs : List α) (at? : Address → Option α) : Prop :=
  ∀ (β : Type) (search : α → Option β), First at? search (xs.findSome? search)

/-! ## Places made from places -/

/-- The first number of an address selects a child, the rest of it a place in the child. -/
def below (children : List γ) (at? : γ → Address → Option α) : Address → Option α
  | [] => none
  | position :: rest => children[position]?.bind fun child ↦ at? child rest

/-- Two kinds of children: below 0 and below 1. -/
def branch (first second : Address → Option α) : Address → Option α
  | 0 :: rest => first rest
  | 1 :: rest => second rest
  | _ => none

/-- A place that itself holds something. -/
def rooted (x : α) (at? : Address → Option α) : Address → Option α
  | [] => some x
  | position :: rest => at? (position :: rest)

theorem findSome?_flatMap {search : α → Option β} {list : γ → List α} (children : List γ) :
    (children.flatMap list).findSome? search =
      children.findSome? fun child ↦ (list child).findSome? search := by
  induction children with
  | nil => rfl
  | cons child children ih =>
    rw [List.flatMap_cons, List.findSome?_append, ih, List.findSome?_cons]
    cases (list child).findSome? search <;> rfl

namespace Enumerates

theorem below {children : List γ} {list : γ → List α} {at? : γ → Address → Option α}
    (h : ∀ child ∈ children, Enumerates (list child) (at? child)) :
    Enumerates (children.flatMap list) (below children at?) := by
  intro β search
  rw [findSome?_flatMap]
  cases hfound : children.findSome? fun child ↦ (list child).findSome? search with
  | none =>
    intro address x hx
    cases address with
    | nil => simp [Address.below] at hx
    | cons position rest =>
      obtain ⟨child, hchild, hx⟩ := Option.bind_eq_some_iff.1 hx
      have hmem := List.mem_of_getElem? hchild
      have hfirst := h child hmem β search
      rw [List.findSome?_eq_none_iff.1 hfound child hmem] at hfirst
      exact hfirst rest x hx
  | some found =>
    obtain ⟨before, child, after, rfl, hchild, hbefore⟩ := List.findSome?_eq_some_iff.1 hfound
    have hfirst := h child (by simp) β search
    rw [hchild] at hfirst
    obtain ⟨rest, x, hx, hsearch, hearlier⟩ := hfirst
    refine ⟨before.length :: rest, x, by simpa [Address.below] using hx, hsearch, ?_⟩
    intro earlier hlt y hy
    cases earlier with
    | nil => simp [Address.below] at hy
    | cons position rest' =>
      obtain ⟨other, hother, hy⟩ := Option.bind_eq_some_iff.1 hy
      rcases List.cons_lt_cons_iff.1 hlt with hposition | ⟨rfl, hrest⟩
      · -- an earlier child, in which the search finds nothing at all
        rw [List.getElem?_append_left hposition] at hother
        have hmem := List.mem_of_getElem? hother
        have hnone := h other (List.mem_append_left _ hmem) β search
        rw [hbefore other hmem] at hnone
        exact hnone rest' y hy
      · -- the same child, further up
        simp only [List.getElem?_append_right, Nat.le_refl, Nat.sub_self,
          List.getElem?_cons_zero, Option.some.injEq] at hother
        subst hother
        exact hearlier rest' hrest y hy

theorem branch {xs ys : List α} {first second : Address → Option α}
    (hfirst : Enumerates xs first) (hsecond : Enumerates ys second) :
    Enumerates (xs ++ ys) (branch first second) := by
  have hchildren : ∀ child ∈ [(first, xs), (second, ys)], Enumerates child.2 child.1 := by
    intro child hchild
    simp only [List.mem_cons, List.not_mem_nil, or_false] at hchild
    rcases hchild with rfl | rfl
    · exact hfirst
    · exact hsecond
  have hbelow := below hchildren
  have hplaces : Address.below [(first, xs), (second, ys)] Prod.fst =
      Address.branch first second := by
    funext address
    match address with
    | [] => rfl
    | 0 :: _ => rfl
    | 1 :: _ => rfl
    | (_ + 2) :: _ => rfl
  simpa [hplaces] using hbelow

theorem rooted {x : α} {xs : List α} {at? : Address → Option α} (h : Enumerates xs at?)
    (hroot : at? [] = none) : Enumerates (x :: xs) (rooted x at?) := by
  have hbelow : ∀ address, address ≠ [] → Address.rooted x at? address = at? address := by
    intro address hne
    cases address with
    | nil => exact absurd rfl hne
    | cons position rest => rfl
  intro β search
  rw [List.findSome?_cons]
  cases hx : search x with
  | some found =>
    exact ⟨[], x, rfl, hx, fun earlier hlt ↦ absurd hlt (List.not_lt_nil earlier)⟩
  | none =>
    have hfirst := h β search
    cases hfound : xs.findSome? search with
    | none =>
      rw [hfound] at hfirst
      intro address y hy
      cases address with
      | nil => exact Option.some.inj hy ▸ hx
      | cons position rest => exact hfirst _ y hy
    | some found =>
      rw [hfound] at hfirst
      obtain ⟨address, y, hy, hsearch, hearlier⟩ := hfirst
      have hne : address ≠ [] := by
        rintro rfl
        rw [hroot] at hy
        contradiction
      refine ⟨address, y, (hbelow address hne).trans hy, hsearch, fun earlier hlt z hz ↦ ?_⟩
      cases earlier with
      | nil => exact Option.some.inj hz ▸ hx
      | cons position rest => exact hearlier _ hlt z hz

theorem map {xs : List α} {at? : Address → Option α} (h : Enumerates xs at?) (f : α → γ) :
    Enumerates (xs.map f) fun address ↦ (at? address).map f := by
  intro β search
  rw [List.findSome?_map]
  have hfirst := h β (search ∘ f)
  cases hfound : xs.findSome? (search ∘ f) with
  | none =>
    rw [hfound] at hfirst
    intro address y hy
    obtain ⟨x, hx, rfl⟩ := Option.map_eq_some_iff.1 hy
    exact hfirst address x hx
  | some found =>
    rw [hfound] at hfirst
    obtain ⟨address, x, hx, hsearch, hearlier⟩ := hfirst
    refine ⟨address, f x, by simp [hx], hsearch, fun earlier hlt y hy ↦ ?_⟩
    obtain ⟨z, hz, rfl⟩ := Option.map_eq_some_iff.1 hy
    exact hearlier earlier hlt z hz

theorem nil : Enumerates ([] : List α) fun _ ↦ none :=
  fun _ _ _ _ hx ↦ nomatch hx

/-- The list has exactly what is held at some address. -/
theorem mem_iff {xs : List α} {at? : Address → Option α} (h : Enumerates xs at?) {x : α} :
    x ∈ xs ↔ ∃ address, at? address = some x := by
  classical
  let search (y : α) : Option Unit := if y = x then some () else none
  have hfirst := h Unit search
  constructor
  · intro hmem
    cases hfound : xs.findSome? search with
    | none =>
      have hnone := List.findSome?_eq_none_iff.1 hfound x hmem
      simp [search] at hnone
    | some found =>
      rw [hfound] at hfirst
      obtain ⟨address, y, hy, hsearch, -⟩ := hfirst
      by_cases heq : y = x
      · exact ⟨address, heq ▸ hy⟩
      · simp [search, heq] at hsearch
  · intro hexists
    obtain ⟨address, hx⟩ := hexists
    cases hfound : xs.findSome? search with
    | none =>
      rw [hfound] at hfirst
      have hsearch := hfirst address x hx
      simp [search] at hsearch
    | some found =>
      obtain ⟨y, hy, hsearch⟩ := List.exists_of_findSome?_eq_some hfound
      by_cases heq : y = x
      · exact heq ▸ hy
      · simp [search, heq] at hsearch

end Enumerates

end Address

end TypedClient
