/-!
# The leftmost element of a kind

A search from left to right ends at the first element of the kind it is after.
Whether an element is of that kind may depend on the elements before it, as it
does where each element uses something up.
-/

namespace TypedClient

variable {α β : Type}

/-- The result belongs to the leftmost element that has one; `found` sees an element together
with those before it. -/
def Leftmost (found : List α → α → β → Prop) (xs : List α) (result : β) : Prop :=
  ∃ before x after, xs = before ++ x :: after ∧ found before x result ∧
    ∀ earlier y later, before = earlier ++ y :: later → ∀ other, ¬ found earlier y other

namespace Leftmost

variable {found : List α → α → β → Prop} {result : β}

@[simp]
theorem not_nil : ¬ Leftmost found [] result := by
  intro h
  obtain ⟨before, x, after, heq, -⟩ := h
  simp at heq

theorem cons_iff {x : α} {xs : List α} : Leftmost found (x :: xs) result ↔
    found [] x result ∨
      (∀ other, ¬ found [] x other) ∧ Leftmost (fun before ↦ found (x :: before)) xs result := by
  constructor
  · intro h
    obtain ⟨before, y, after, heq, hfound, hearlier⟩ := h
    cases before with
    | nil =>
      obtain ⟨rfl, -⟩ := List.cons.inj heq
      exact .inl hfound
    | cons z before =>
      obtain ⟨rfl, rfl⟩ := List.cons.inj heq
      refine .inr ⟨hearlier [] x before rfl, before, y, after, rfl, hfound, ?_⟩
      intro earlier w later hbefore
      exact hearlier (x :: earlier) w later (congrArg (x :: ·) hbefore)
  · intro h
    rcases h with hfound | ⟨hnone, before, y, after, rfl, hfound, hearlier⟩
    · refine ⟨[], x, xs, rfl, hfound, ?_⟩
      intro earlier y later hnil
      simp at hnil
    · refine ⟨x :: before, y, after, rfl, hfound, ?_⟩
      intro earlier w later hbefore
      cases earlier with
      | nil =>
        obtain ⟨rfl, -⟩ := List.cons.inj hbefore
        exact hnone
      | cons z earlier =>
        obtain ⟨rfl, rfl⟩ := List.cons.inj hbefore
        exact hearlier earlier w later rfl

theorem congr {other : List α → α → β → Prop}
    (h : ∀ before x result, found before x result ↔ other before x result) (xs : List α) :
    Leftmost found xs result ↔ Leftmost other xs result := by
  have heq : found = other := by
    funext before x result
    exact propext (h before x result)
  rw [heq]

end Leftmost

/-- A search that looks at each element alone. -/
theorem findSome?_eq_some_iff_leftmost {search : α → Option β} {xs : List α} {result : β} :
    xs.findSome? search = some result ↔
      Leftmost (fun _ x result ↦ search x = some result) xs result := by
  induction xs with
  | nil => simp
  | cons x xs ih =>
    rw [List.findSome?_cons, Leftmost.cons_iff, ← ih]
    cases search x <;> simp

end TypedClient
