import TypedClient.Proofs.Callable.Binding
import TypedClient.Proofs.Leftmost

/-!
# When a placeholder goes without a parameter

A placeholder takes one of the free parameters of its name, whichever comes
first, and no other placeholder takes it again. So it is enough to count: a
placeholder goes without a parameter exactly when at least as many placeholders
of its name stand before it as there are parameters for that name. Along a route
the parameters for a name and the placeholders of it are used up together.
-/

namespace TypedClient

namespace RoutePart

def isNamed (name : String) : RoutePart → Bool
  | literal _ => false
  | placeholder other _ _ => Text.eqIgnoringCase other name

end RoutePart

namespace Route

/-- How many placeholders of the name there are, required or not. -/
def demand (parts : List RoutePart) (name : String) : Nat :=
  parts.countP (RoutePart.isNamed name)

/-- The part is a required placeholder, and the placeholders before it leave nothing of what there
is for its name. -/
def Unmet (supply : String → Nat) (before : List RoutePart) (part : RoutePart)
    (name : String) : Prop :=
  (∃ catchAll, part = .placeholder name false catchAll) ∧ supply name ≤ demand before name

theorem demand_cons_placeholder (name other : String) (optional catchAll : Bool)
    (before : List RoutePart) :
    demand (.placeholder name optional catchAll :: before) other =
      demand before other + if Text.eqIgnoringCase name other then 1 else 0 :=
  List.countP_cons

end Route

namespace Binding

open Route

/-- How many slots are free for a placeholder of the name. -/
def supply (slots : List Slot) (name : String) : Nat :=
  slots.countP (accepts name)

/-! ## Names without regard to case -/

theorem accepts_congr {left right : String} (h : Text.eqIgnoringCase left right = true) :
    accepts left = accepts right := by
  funext slot
  rw [Text.eqIgnoringCase_iff] at h
  simp only [accepts, Text.eqIgnoringCase, h]

theorem accepts_path (name : String) (slot : Slot) :
    accepts name { slot with role := some .path } = false := by
  simp [accepts]

/-- A slot that accepts one name accepts the names equal to it, and no other. -/
theorem accepts_eq_of_accepts {name other : String} {slot : Slot} (h : accepts name slot = true) :
    accepts other slot = Text.eqIgnoringCase name other := by
  obtain ⟨hrole, hmay, hname⟩ := accepts_iff.1 h
  rw [Text.eqIgnoringCase_iff] at hname
  simp [accepts, Text.eqIgnoringCase, hrole, hmay, hname]

/-! ## One placeholder -/

theorem claim?_eq_none_iff {name : String} {slots : List Slot} :
    claim? name slots = none ↔ supply slots name = 0 := by
  rw [supply, List.countP_eq_zero]
  induction slots with
  | nil => simp [claim?]
  | cons slot slots ih =>
    rw [claim?]
    split
    · rename_i haccepts
      simp [haccepts]
    · rename_i hrefuses
      simp [hrefuses, ih]

/-- A claim uses up one slot of its name and leaves the supply of every other name. -/
theorem supply_eq_of_claim? {name : String} {parameter : Parameter} {slots rest : List Slot}
    (h : claim? name slots = some (parameter, rest)) (other : String) :
    supply slots other = supply rest other + if Text.eqIgnoringCase name other then 1 else 0 := by
  unfold supply
  induction slots generalizing rest with
  | nil => simp [claim?] at h
  | cons slot slots ih =>
    rw [claim?] at h
    split at h
    · rename_i haccepts
      simp only [Option.some.injEq, Prod.mk.injEq] at h
      obtain ⟨-, rfl⟩ := h
      rw [List.countP_cons, List.countP_cons, accepts_path, accepts_eq_of_accepts haccepts]
      simp
    · obtain ⟨⟨found, left⟩, hclaim, heq⟩ := Option.map_eq_some_iff.1 h
      simp only [Prod.mk.injEq] at heq
      obtain ⟨rfl, rfl⟩ := heq
      rw [List.countP_cons, List.countP_cons, ih hclaim]
      omega

/-- A placeholder that was filled uses up as much of the supply as of the demand. -/
theorem unmet_cons_of_claim? {name : String} {optional catchAll : Bool} {parameter : Parameter}
    {slots rest : List Slot} (h : claim? name slots = some (parameter, rest))
    (before : List RoutePart) (part : RoutePart) (missing : String) :
    Unmet (supply slots) (.placeholder name optional catchAll :: before) part missing ↔
      Unmet (supply rest) before part missing := by
  rw [Unmet, Unmet, supply_eq_of_claim? h, demand_cons_placeholder, Nat.add_le_add_iff_right]

/-- Where nothing is free for a name, a further placeholder of that name changes nothing. -/
theorem unmet_cons_of_supply_eq_zero {name : String} {optional catchAll : Bool}
    {slots : List Slot} (h : supply slots name = 0)
    (before : List RoutePart) (part : RoutePart) (missing : String) :
    Unmet (supply slots) (.placeholder name optional catchAll :: before) part missing ↔
      Unmet (supply slots) before part missing := by
  rw [Unmet, Unmet, demand_cons_placeholder]
  by_cases hname : Text.eqIgnoringCase name missing = true
  · have hsupply : supply slots missing = 0 := by
      rwa [supply, ← accepts_congr hname]
    simp [hsupply]
  · simp [hname]

/-! ## A whole route -/

/-- Filling a route fails for the leftmost required placeholder that goes without a parameter, and
only for that one. -/
theorem fillFrom_eq_error_iff (segments : List UriSegment) {slots : List Slot}
    {parts : List RoutePart} {missing : String} :
    fillFrom segments slots parts = .error missing ↔
      Leftmost (Unmet (supply slots)) parts missing := by
  induction parts generalizing segments slots with
  | nil => simp [fillFrom]
  | cons part parts ih =>
    rw [Leftmost.cons_iff]
    cases part with
    | literal text =>
      have hskip : ∀ before part missing,
          Unmet (supply slots) (.literal text :: before) part missing ↔
            Unmet (supply slots) before part missing :=
        fun _ _ _ ↦ Iff.rfl
      rw [fillFrom, ih, Leftmost.congr hskip]
      simp [Unmet]
    | placeholder name optional catchAll =>
      rw [fillFrom]
      cases hclaim : claim? name slots with
      | some taken =>
        obtain ⟨parameter, rest⟩ := taken
        -- a slot was free, so the placeholder itself is not unmet
        have hfree : supply slots name ≠ 0 := by
          rw [ne_eq, ← claim?_eq_none_iff, hclaim]
          simp
        have hmet : ∀ other,
            ¬ Unmet (supply slots) [] (.placeholder name optional catchAll) other := by
          intro other h
          obtain ⟨⟨_, heq⟩, hsupply⟩ := h
          obtain ⟨rfl, -⟩ := RoutePart.placeholder.inj heq
          exact hfree (Nat.le_zero.1 hsupply)
        rw [ih, Leftmost.congr (unmet_cons_of_claim? hclaim)]
        simp [hmet]
      | none =>
        have hnone := claim?_eq_none_iff.1 hclaim
        cases optional with
        | true =>
          have hmet : ∀ other,
              ¬ Unmet (supply slots) [] (.placeholder name true catchAll) other := by
            simp [Unmet]
          rw [Leftmost.congr (unmet_cons_of_supply_eq_zero hnone)]
          simp [ih, hmet]
        | false =>
          have hunmet : ∀ other,
              Unmet (supply slots) [] (.placeholder name false catchAll) other ↔ name = other := by
            intro other
            constructor
            · intro h
              obtain ⟨⟨_, heq⟩, -⟩ := h
              exact (RoutePart.placeholder.inj heq).1
            · rintro rfl
              exact ⟨⟨catchAll, rfl⟩, Nat.le_of_eq hnone⟩
          simp [hunmet]

end Binding

end TypedClient
