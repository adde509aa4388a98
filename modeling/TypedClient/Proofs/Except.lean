/-!
# Computations that may fail

A chain of two computations ends well when both do, and fails with the first
failure.
-/

namespace TypedClient.Except

variable {α β ε : Type} {first : Except ε α} {next : α → Except ε β}

theorem bind_eq_ok_iff {y : β} : first >>= next = .ok y ↔ ∃ x, first = .ok x ∧ next x = .ok y := by
  cases first with
  | ok x =>
    constructor
    · exact fun h ↦ ⟨x, rfl, h⟩
    · intro hexists
      obtain ⟨found, hfound, h⟩ := hexists
      exact Except.ok.inj hfound ▸ h
  | error failure =>
    constructor
    · exact fun h ↦ nomatch h
    · exact fun ⟨_, h, _⟩ ↦ nomatch h

theorem bind_eq_error_iff {failure : ε} : first >>= next = .error failure ↔
    first = .error failure ∨ ∃ x, first = .ok x ∧ next x = .error failure := by
  cases first with
  | ok x =>
    constructor
    · exact fun h ↦ .inr ⟨x, rfl, h⟩
    · intro hfails
      rcases hfails with h | ⟨found, hfound, h⟩
      · exact nomatch h
      · exact Except.ok.inj hfound ▸ h
  | error found =>
    constructor
    · intro h
      exact .inl (congrArg _ (Except.error.inj h))
    · intro hfails
      rcases hfails with h | ⟨_, h, _⟩
      · exact congrArg _ (Except.error.inj h)
      · exact nomatch h

end TypedClient.Except
