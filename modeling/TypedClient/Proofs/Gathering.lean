import Mathlib.Order.Defs.Unbundled
import TypedClient.Proofs.Grouping

/-!
# Gathering the elements of each key

A step that adds one element to the group of its key leaves the other groups as
they are. After any number of steps, the group of a key is therefore what the
elements of this key, in their order, have made of it. Groups that are kept in
the order of their keys stay so, and a key never gets a second one.
-/

namespace TypedClient.Ordered

variable {α β γ κ : Type}

/-! ## The group of one key -/

/-- Changes the first element. Where there is none, a fresh one is put in before the change. -/
def changeFirst (fresh : γ) (change : γ → γ) : List γ → List γ
  | [] => [change fresh]
  | x :: xs => change x :: xs

theorem foldl_changeFirst_cons (fresh : α → γ) (add : α → γ → γ) (xs : List α) (first : γ)
    (rest : List γ) :
    xs.foldl (fun groups x ↦ changeFirst (fresh x) (add x) groups) (first :: rest) =
      xs.foldl (fun group x ↦ add x group) first :: rest := by
  induction xs generalizing first with
  | nil => rfl
  | cons x xs ih => exact ih (add x first)

/-- Where every step appends one value, all steps together append the values in their order. -/
theorem foldl_concat {add : α → γ → γ} (make : List β → γ) (value : α → β)
    (hadd : ∀ x values, add x (make values) = make (values ++ [value x])) (xs : List α)
    (values : List β) :
    xs.foldl (fun group x ↦ add x group) (make values) = make (values ++ xs.map value) := by
  induction xs generalizing values with
  | nil => rw [List.foldl_nil, List.map_nil, List.append_nil]
  | cons x xs ih =>
    rw [List.foldl_cons, hadd, ih, List.map_cons, List.append_assoc, List.singleton_append]

/-- Among the elements of a list that is made step by step, those of one name depend on the steps
of this name only. -/
theorem filter_foldl_eq [DecidableEq κ] {name : γ → κ} {key : α → κ} {fresh : α → γ}
    {add : α → γ → γ} {step : List γ → α → List γ} (Good : List γ → Prop)
    (hgood : ∀ groups x, Good groups → Good (step groups x))
    (hstep : ∀ groups x k, Good groups → (step groups x).filter (name · = k) =
      if key x = k then changeFirst (fresh x) (add x) (groups.filter (name · = k))
      else groups.filter (name · = k))
    (xs : List α) {start : List γ} (hstart : Good start) (k : κ) :
    (xs.foldl step start).filter (name · = k) =
      (xs.filter (key · = k)).foldl (fun groups x ↦ changeFirst (fresh x) (add x) groups)
        (start.filter (name · = k)) := by
  induction xs generalizing start with
  | nil => rfl
  | cons x xs ih =>
    rw [List.foldl_cons, ih (hgood start x hstart), hstep start x k hstart]
    by_cases hx : key x = k
    · simp [hx]
    · simp [hx]

/-! ## Entries in ascending order of their keys -/

variable [LT κ] [DecidableEq κ]

/-- The keys of the entries are strictly ascending. -/
def Ascending (entries : List (κ × β)) : Prop :=
  entries.Pairwise (·.1 < ·.1)

/-- A key below the first one has no entry. -/
theorem Ascending.filter_eq_nil_of_lt [IsStrictTotalOrder κ (· < ·)] {first : κ × β}
    {entries : List (κ × β)} (h : Ascending (first :: entries)) {key : κ} (hlt : key < first.1) :
    (first :: entries).filter (·.1 = key) = [] := by
  have hbelow := (List.pairwise_cons.1 h).1
  rw [List.filter_eq_nil_iff]
  intro entry hentry heq
  have hkey : entry.1 = key := of_decide_eq_true heq
  apply irrefl_of (· < ·) key
  rcases List.mem_cons.1 hentry with rfl | hentry
  · exact hkey ▸ hlt
  · exact trans_of (· < ·) hlt (hkey ▸ hbelow entry hentry)

variable [DecidableLT κ]

theorem key_of_mem_upsert {entries : List (κ × β)} {key : κ} {fresh : β} {change : β → β}
    {entry : κ × β} (h : entry ∈ upsert key fresh change entries) :
    entry.1 = key ∨ ∃ old ∈ entries, old.1 = entry.1 := by
  induction entries with
  | nil =>
    obtain rfl := List.mem_singleton.1 h
    exact .inl rfl
  | cons first entries ih =>
    rw [upsert] at h
    split at h
    · rcases List.mem_cons.1 h with rfl | hold
      · exact .inl rfl
      · exact .inr ⟨entry, hold, rfl⟩
    · split at h
      · rcases List.mem_cons.1 h with rfl | hold
        · exact .inr ⟨first, List.mem_cons_self, rfl⟩
        · exact .inr ⟨entry, List.mem_cons_of_mem _ hold, rfl⟩
      · rcases List.mem_cons.1 h with rfl | hlater
        · exact .inr ⟨entry, List.mem_cons_self, rfl⟩
        · apply (ih hlater).imp_right
          rintro ⟨old, hold, hkey⟩
          exact ⟨old, List.mem_cons_of_mem _ hold, hkey⟩

variable [IsStrictTotalOrder κ (· < ·)]

theorem Ascending.upsert {entries : List (κ × β)} (h : Ascending entries) (key : κ) (fresh : β)
    (change : β → β) : Ascending (upsert key fresh change entries) := by
  induction entries with
  | nil => exact List.pairwise_singleton _ _
  | cons first entries ih =>
    obtain ⟨hbelow, hentries⟩ := List.pairwise_cons.1 h
    rw [Ordered.upsert]
    split
    · rename_i hlt
      refine List.pairwise_cons.2 ⟨?_, h⟩
      intro entry hentry
      rcases List.mem_cons.1 hentry with rfl | hentry
      · exact hlt
      · exact trans_of (· < ·) hlt (hbelow entry hentry)
    · split
      · exact List.pairwise_cons.2 ⟨hbelow, hentries⟩
      · rename_i hnot hne
        refine List.pairwise_cons.2 ⟨?_, ih hentries⟩
        intro entry hentry
        rcases key_of_mem_upsert hentry with hkey | ⟨old, hold, hkey⟩
        · rw [hkey]
          exact (trichotomous_of (· < ·) key first.1).resolve_left hnot |>.resolve_left hne
        · exact hkey ▸ hbelow old hold

/-- The entry of the key is changed, and no other one. -/
theorem filter_upsert {entries : List (κ × β)} (h : Ascending entries) (key : κ) (fresh : β)
    (change : β → β) (k : κ) :
    (upsert key fresh change entries).filter (·.1 = k) =
      if key = k then changeFirst (key, fresh) (Prod.map id change) (entries.filter (·.1 = k))
      else entries.filter (·.1 = k) := by
  induction entries with
  | nil =>
    by_cases hk : key = k
    · simp [upsert, changeFirst, hk]
    · simp [upsert, hk]
  | cons first entries ih =>
    obtain ⟨hbelow, hentries⟩ := List.pairwise_cons.1 h
    rw [upsert]
    split
    · rename_i hlt
      by_cases hk : key = k
      · subst hk
        simp [h.filter_eq_nil_of_lt hlt, changeFirst]
      · simp [hk]
    · split
      · rename_i heq
        subst heq
        by_cases hk : first.1 = k
        · simp [hk, changeFirst, Prod.map]
        · simp [hk]
      · rename_i hne
        rw [List.filter_cons, ih hentries, List.filter_cons]
        by_cases hfirst : first.1 = k
        · have hk : key ≠ k := fun hk ↦ hne (hk.trans hfirst.symm)
          simp [hfirst, hk]
        · simp [hfirst]

/-! ## Gathered groups -/

variable {key : α → κ} {fresh : α → β} {add : α → β → β}

theorem ascending_gather (xs : List α) : Ascending (gather key fresh add xs) := by
  have hfold : ∀ start : List (κ × β), Ascending start → Ascending
      (xs.foldl (fun groups x ↦ upsert (key x) (fresh x) (add x) groups) start) := by
    induction xs with
    | nil => exact fun _ hstart ↦ hstart
    | cons x xs ih => exact fun start hstart ↦ ih _ (hstart.upsert (key x) (fresh x) (add x))
  exact hfold [] List.Pairwise.nil

/-- The first element of a key makes the group, and all of them are added to it in order. -/
theorem filter_gather (xs : List α) (k : κ) :
    (gather key fresh add xs).filter (·.1 = k) =
      match xs.filter (key · = k) with
      | [] => []
      | x :: rest => [(k, (x :: rest).foldl (fun group y ↦ add y group) (fresh x))] := by
  have hvalues : ∀ (rest : List α) (entry : κ × β),
      rest.foldl (fun entry x ↦ Prod.map id (add x) entry) entry =
        (entry.1, rest.foldl (fun group x ↦ add x group) entry.2) := by
    intro rest
    induction rest with
    | nil => exact fun _ ↦ rfl
    | cons x rest ih => exact fun entry ↦ ih (Prod.map id (add x) entry)
  have hfold : (gather key fresh add xs).filter (·.1 = k) =
      (xs.filter (key · = k)).foldl
        (fun groups x ↦ changeFirst (key x, fresh x) (Prod.map id (add x)) groups) [] :=
    filter_foldl_eq Ascending (fun _ x hentries ↦ hentries.upsert (key x) (fresh x) (add x))
      (fun _ x k hentries ↦ filter_upsert hentries (key x) (fresh x) (add x) k) xs
      List.Pairwise.nil k
  rw [hfold]
  cases hgroup : xs.filter (key · = k) with
  | nil => rfl
  | cons x rest =>
    rw [List.foldl_cons, changeFirst, foldl_changeFirst_cons, hvalues]
    dsimp only [Prod.map, id]
    rw [key_eq_of_filter_eq_cons hgroup, List.foldl_cons]

theorem exists_of_mem_gather {xs : List α} {entry : κ × β}
    (h : entry ∈ gather key fresh add xs) :
    ∃ x rest, xs.filter (key · = entry.1) = x :: rest ∧
      entry.2 = (x :: rest).foldl (fun group y ↦ add y group) (fresh x) := by
  have hentry : entry ∈ (gather key fresh add xs).filter (·.1 = entry.1) :=
    List.mem_filter.2 ⟨h, decide_eq_true rfl⟩
  rw [filter_gather] at hentry
  cases hgroup : xs.filter (key · = entry.1) with
  | nil =>
    rw [hgroup] at hentry
    exact absurd hentry List.not_mem_nil
  | cons x rest =>
    rw [hgroup] at hentry
    exact ⟨x, rest, rfl, congrArg Prod.snd (List.mem_singleton.1 hentry)⟩

instance isStrictTotalOrder_string : IsStrictTotalOrder String (· < ·) where
  trichotomous _ _ hlt hgt := String.le_antisymm (String.not_lt.1 hgt) (String.not_lt.1 hlt)
  irrefl := String.lt_irrefl
  trans _ _ _ := String.lt_trans

end TypedClient.Ordered
