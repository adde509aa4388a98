import Mathlib.Data.List.Infix
import TypedClient.Rendering.Definitions

/-!
# Values of enumerations

A compact enumeration gives back the constants it was made from, and stores a
value only where the first value and the position do not add up to it. Written
out, it is numbered by the rule of the language: the first member counts from
zero, any other one from the member before it, and a member with a value of its
own has that value. The numbering gives the constants back unless the largest
64-bit value stands twice in a row. Counting stops there, so that the second of
the two is written without its value, and the rule goes beyond 64 bits.
-/

namespace TypedClient

namespace Enumeration

/-- A value is left out only where base and position give it. -/
theorem valuesFrom_compactFrom (base : Int64) (position : Nat)
    (constants : List (String × Int64 × Option String)) :
    valuesFrom base position (compactFrom base position constants) =
      constants.map fun constant ↦ (constant.1, constant.2.1) := by
  induction constants generalizing position with
  | nil => rfl
  | cons constant rest ih =>
    obtain ⟨name, value, doc⟩ := constant
    rw [compactFrom, valuesFrom, ih, List.map_cons]
    by_cases himplicit : implicit? base position = some value
    · simp [himplicit]
    · simp [himplicit]

@[simp]
theorem values_compact (constants : List (String × Int64 × Option String)) :
    (compact constants).values = constants.map fun constant ↦ (constant.1, constant.2.1) :=
  valuesFrom_compactFrom _ 0 constants

theorem length_compactFrom (base : Int64) (position : Nat)
    (constants : List (String × Int64 × Option String)) :
    (compactFrom base position constants).length = constants.length := by
  induction constants generalizing position with
  | nil => rfl
  | cons constant rest ih => rw [compactFrom, List.length_cons, ih, List.length_cons]

/-- Every value has its constant beside it. -/
theorem map_fst_zip_compact (constants : List (String × Int64 × Option String)) :
    ((compact constants).values.zip (compact constants).constants).map Prod.fst =
      constants.map fun constant ↦ (constant.1, constant.2.1) := by
  rw [List.map_fst_zip, values_compact]
  rw [values_compact, List.length_map]
  exact (length_compactFrom _ 0 constants).ge

/-! ## Stored values -/

/-- The implicit value is the exact sum; beyond 64 bits there is none. -/
theorem implicit?_eq_some_iff {base value : Int64} {position : Nat} :
    implicit? base position = some value ↔ base.toInt + position = value.toInt := by
  have hbase := base.le_toInt
  simp only [implicit?]
  constructor
  · intro h
    split at h
    · rename_i hsum
      rw [Int64.toInt_maxValue] at hsum
      rw [← Option.some.inj h, Int64.toInt_ofInt_of_le]
      · omega
      · omega
    · contradiction
  · intro h
    rw [h, if_pos value.toInt_le, Int64.ofInt_toInt]

theorem getElem?_compactFrom (base : Int64) (start : Nat)
    (constants : List (String × Int64 × Option String)) (position : Nat) :
    (compactFrom base start constants)[position]? = constants[position]?.map fun constant ↦
      { name := constant.1
        explicit := if implicit? base (start + position) = some constant.2.1 then none
          else some constant.2.1
        doc := constant.2.2 } := by
  induction constants generalizing start position with
  | nil => simp [compactFrom]
  | cons constant rest ih =>
    obtain ⟨name, value, doc⟩ := constant
    rw [compactFrom]
    cases position with
    | zero => rfl
    | succ position =>
      rw [List.getElem?_cons_succ, List.getElem?_cons_succ, ih, Nat.add_assoc, Nat.add_comm 1]

/-- A sum within 64 bits is the exact one. -/
theorem toInt_add_of_sum_eq {base value step : Int64} (hsum : base.toInt + step.toInt = value.toInt) :
    (base + step).toInt = base.toInt + step.toInt := by
  have hge := value.le_toInt
  have hlt := value.toInt_lt
  rw [Int64.toInt_add]
  apply Int.bmod_eq_of_le
  · omega
  · omega

/-- What is stored for the value at a position, behind the given first value. -/
structure Stores (first : Int64) (position : Nat) (value : Int64) (constant : EnumConstant) :
    Prop where
  /-- The value is there without the fallback. -/
  found : constant.explicit.or (implicit? first position) = some value
  explicit_iff : constant.explicit ≠ none ↔ first.toInt + position ≠ value.toInt
  /-- A position within 64 bits stays what it is, and its sum with the first value is within 64 bits
  if that is needed. -/
  exact : position ≤ Int64.maxValue.toInt → (Int64.ofNat position).toInt = position ∧
    (constant.explicit = none →
      (first + Int64.ofNat position).toInt = first.toInt + (Int64.ofNat position).toInt)

theorem stores_compacted (first : Int64) (position : Nat) (name : String) (value : Int64)
    (doc : Option String) :
    Stores first position value
      { name
        explicit := if implicit? first position = some value then none else some value
        doc } := by
  have hposition (h : position ≤ Int64.maxValue.toInt) :
      (Int64.ofNat position).toInt = position := by
    rw [Int64.toInt_maxValue] at h
    exact Int64.toInt_ofNat_of_lt (by omega)
  by_cases himplicit : implicit? first position = some value
  · have hsum := implicit?_eq_some_iff.1 himplicit
    rw [if_pos himplicit]
    refine { found := himplicit, explicit_iff := by simp [hsum], exact := ?_ }
    intro hle
    have hstep := hposition hle
    have hexact : first.toInt + (Int64.ofNat position).toInt = value.toInt := by rw [hstep, hsum]
    exact ⟨hstep, fun _ ↦ toInt_add_of_sum_eq hexact⟩
  · have hsum := mt implicit?_eq_some_iff.2 himplicit
    rw [if_neg himplicit]
    refine { found := rfl, explicit_iff := by simp [hsum], exact := ?_ }
    exact fun hle ↦ ⟨hposition hle, nofun⟩

/-- A compact enumeration gives back the names and values it was made from. A value is written out
exactly where the first value and the position do not add up to it; where it is not, the sum does
not overflow. -/
theorem compact_reads_back (constants : List (String × Int64 × Option String)) :
    (compact constants).values = constants.map (fun constant ↦ (constant.1, constant.2.1)) ∧
      ∀ (position : Nat) (name : String) (value : Int64) (doc : Option String),
        constants[position]? = some (name, value, doc) →
        ∃ first constant, constants.head? = some first ∧
          (compact constants).constants[position]? = some constant ∧
          constant.name = name ∧ constant.doc = doc ∧ Stores first.2.1 position value constant := by
  refine ⟨values_compact constants, ?_⟩
  intro position name value doc hconstant
  cases constants with
  | nil => simp at hconstant
  | cons first rest =>
    have hcompact := getElem?_compactFrom first.2.1 0 (first :: rest) position
    rw [hconstant, Nat.zero_add] at hcompact
    exact ⟨first, _, rfl, hcompact, rfl, rfl, stores_compacted first.2.1 position name value doc⟩

example : (compact [("Max", Int64.maxValue, none), ("Min", Int64.minValue, none)]).constants.map
    EnumConstant.explicit = [none, some Int64.minValue] := by decide

/-! ## The largest value -/

/-- The largest value stands twice in a row. -/
def RepeatsLargest (values : List Int64) : Prop :=
  [Int64.maxValue, Int64.maxValue] <:+: values

theorem not_repeatsLargest_toList (previous : Option Int64) :
    ¬ RepeatsLargest previous.toList := by
  intro h
  have hlength := h.length_le
  cases previous with
  | none => simp at hlength
  | some value => simp at hlength

theorem repeatsLargest_cons_iff {previous : Option Int64} {value : Int64} {values : List Int64} :
    RepeatsLargest (previous.toList ++ value :: values) ↔
      previous = some Int64.maxValue ∧ value = Int64.maxValue ∨
        RepeatsLargest (value :: values) := by
  cases previous with
  | none => simp
  | some before =>
    rw [Option.toList_some, List.singleton_append, RepeatsLargest, List.infix_cons_iff]
    simp [RepeatsLargest, eq_comm]

end Enumeration

open Enumeration (RepeatsLargest repeatsLargest_cons_iff)

namespace TypeScript

namespace EnumMember

/-! ## The rule of the language -/

/-- Names and values of members, of which the first counts from `start`. -/
def numberedFrom (start : Int) : List EnumMember → List (String × Int)
  | [] => []
  | member :: rest =>
    (member.name, member.initializer.getD start) ::
      numberedFrom (member.initializer.getD start + 1) rest

/-- Names and values of members by the rule of the language, in exact integers. -/
def numbered (members : List EnumMember) : List (String × Int) :=
  numberedFrom 0 members

/-- The value that a member without an initializer has behind the given one. -/
def countOn : Option Int64 → Int
  | none => 0
  | some value => value.toInt + 1

/-- The same value as far as it is counted in 64 bits. -/
def nextAfter (previous : Option Int64) : Int64 :=
  previous.elim 0 nextValue

theorem toInt_nextValue {value : Int64} (h : value ≠ Int64.maxValue) :
    (nextValue value).toInt = value.toInt + 1 := by
  have hne : value.toInt ≠ Int64.maxValue.toInt := fun heq ↦ h (Int64.toInt_inj.1 heq)
  have hle := value.toInt_le
  have hge := value.le_toInt
  rw [Int64.toInt_maxValue] at hne hle
  rw [nextValue, if_neg h, Int64.toInt_add, Int64.toInt_one]
  apply Int.bmod_eq_of_le
  · omega
  · omega

/-- Counting in 64 bits is exact, except that it stays at the largest value. -/
theorem eq_nextAfter_iff {previous : Option Int64} {value : Int64} :
    value = nextAfter previous ↔
      value.toInt = countOn previous ∨
        previous = some Int64.maxValue ∧ value = Int64.maxValue := by
  cases previous with
  | none =>
    simp only [nextAfter, Option.elim_none, countOn, reduceCtorEq, false_and, or_false]
    exact Int64.toInt_inj.symm
  | some before =>
    simp only [nextAfter, Option.elim_some, countOn, Option.some.injEq]
    by_cases hlargest : before = Int64.maxValue
    · subst hlargest
      have hlt := value.toInt_lt
      have hne : value.toInt ≠ Int64.maxValue.toInt + 1 := by
        rw [Int64.toInt_maxValue]
        omega
      simp [nextValue, hne]
    · rw [← Int64.toInt_inj, toInt_nextValue hlargest]
      simp [hlargest]

/-! ## Numbering what was written -/

/-- A member that is written behind `previous` gets its value back, unless both have the
largest one. -/
theorem getD_initializer_eq_iff {previous : Option Int64} {value : Int64} :
    (if value = nextAfter previous then none else some value.toInt).getD (countOn previous) =
        value.toInt ↔
      ¬ (previous = some Int64.maxValue ∧ value = Int64.maxValue) := by
  split
  · rename_i hnext
    rw [Option.getD_none]
    constructor
    · intro hcount hlargest
      obtain ⟨rfl, rfl⟩ := hlargest
      rw [countOn] at hcount
      omega
    · intro hlargest
      exact ((eq_nextAfter_iff.1 hnext).resolve_right hlargest).symm
  · rename_i hnext
    have hlargest := fun h ↦ hnext (eq_nextAfter_iff.2 (.inr h))
    simp only [Option.getD_some, true_iff]
    exact hlargest

/-- The induction is on the members, with the value before them; once a member misses its value,
the lists differ whatever follows. -/
theorem numberedFrom_numberFrom_iff (previous : Option Int64)
    (pairs : List ((String × Int64) × EnumConstant)) :
    numberedFrom (countOn previous) (numberFrom (nextAfter previous) pairs) =
        pairs.map (fun pair ↦ (pair.1.1, pair.1.2.toInt)) ↔
      ¬ RepeatsLargest (previous.toList ++ pairs.map (·.1.2)) := by
  induction pairs generalizing previous with
  | nil =>
    simp only [numberFrom, numberedFrom, List.map_nil, List.append_nil, true_iff]
    exact Enumeration.not_repeatsLargest_toList previous
  | cons pair rest ih =>
    obtain ⟨⟨name, value⟩, constant⟩ := pair
    rw [numberFrom, numberedFrom, List.map_cons, List.map_cons, List.cons.injEq, Prod.mk.injEq,
      repeatsLargest_cons_iff, not_or, getD_initializer_eq_iff]
    simp only [true_and]
    apply and_congr_right
    intro hlargest
    rw [getD_initializer_eq_iff.2 hlargest]
    exact ih (some value)

theorem map_name_numberFrom (next : Int64) (pairs : List ((String × Int64) × EnumConstant)) :
    (numberFrom next pairs).map name = pairs.map (·.1.1) := by
  induction pairs generalizing next with
  | nil => rfl
  | cons pair rest ih =>
    obtain ⟨⟨name, value⟩, constant⟩ := pair
    rw [numberFrom, List.map_cons, ih, List.map_cons]

/-- The value before a position of a list, or `previous` at its start. -/
def preceding (previous : Option Int64) (values : List Int64) : Nat → Option Int64
  | 0 => previous
  | position + 1 => values[position]?

theorem getElem?_numberFrom (previous : Option Int64)
    (pairs : List ((String × Int64) × EnumConstant)) (position : Nat) :
    (numberFrom (nextAfter previous) pairs)[position]? = pairs[position]?.map fun pair ↦
      { name := pair.1.1
        initializer := if pair.1.2 = nextAfter (preceding previous (pairs.map (·.1.2)) position)
          then none else some pair.1.2.toInt
        doc := pair.2.doc } := by
  induction pairs generalizing previous position with
  | nil => simp [numberFrom]
  | cons pair rest ih =>
    obtain ⟨⟨name, value⟩, constant⟩ := pair
    rw [numberFrom]
    cases position with
    | zero => rfl
    | succ position =>
      rw [List.getElem?_cons_succ, List.getElem?_cons_succ]
      have hrest := ih (some value) position
      cases position with
      | zero => exact hrest
      | succ position => exact hrest

end EnumMember

open EnumMember (numbered countOn preceding)

/-- Written and numbered again, an enumeration has its names, and it has its values unless the
largest one stands twice in a row. A member is written without its value where counting gives the
value, and where it repeats the largest one. -/
theorem numbered_ofEnumeration_compact (constants : List (String × Int64 × Option String)) :
    ∃ members, Definition.ofEnumeration (.compact constants) = .enumeration members ∧
      members.map EnumMember.name = constants.map Prod.fst ∧
      (numbered members = constants.map (fun constant ↦ (constant.1, constant.2.1.toInt)) ↔
        ¬ RepeatsLargest (constants.map (·.2.1))) ∧
      ∀ position member, members[position]? = some member →
        ∃ constant, constants[position]? = some constant ∧
          (member.initializer = none ∨ member.initializer = some constant.2.1.toInt) ∧
          (member.initializer = none ↔
            constant.2.1.toInt = countOn (preceding none (constants.map (·.2.1)) position) ∨
              preceding none (constants.map (·.2.1)) position = some Int64.maxValue ∧
                constant.2.1 = Int64.maxValue) := by
  let pairs := (Enumeration.compact constants).values.zip (Enumeration.compact constants).constants
  have hpairs : pairs.map Prod.fst = constants.map fun constant ↦ (constant.1, constant.2.1) :=
    Enumeration.map_fst_zip_compact constants
  have hvalues : pairs.map (·.1.2) = constants.map (·.2.1) := by
    have hsecond := congrArg (List.map Prod.snd) hpairs
    rwa [List.map_map, List.map_map] at hsecond
  refine ⟨_, rfl, ?_, ?_, ?_⟩
  · have hfirst := congrArg (List.map Prod.fst) hpairs
    rw [List.map_map, List.map_map] at hfirst
    rw [EnumMember.map_name_numberFrom]
    exact hfirst
  · have hnumbered := EnumMember.numberedFrom_numberFrom_iff none pairs
    rw [hvalues] at hnumbered
    have hexact : pairs.map (fun pair ↦ (pair.1.1, pair.1.2.toInt)) =
        constants.map fun constant ↦ (constant.1, constant.2.1.toInt) := by
      have hboth := congrArg (List.map fun pair ↦ (pair.1, pair.2.toInt)) hpairs
      rwa [List.map_map, List.map_map] at hboth
    rwa [hexact] at hnumbered
  · intro position member hmember
    have hwritten := EnumMember.getElem?_numberFrom none pairs position
    rw [hvalues] at hwritten
    obtain ⟨pair, hpair, rfl⟩ := Option.map_eq_some_iff.1 (hwritten.symm.trans hmember)
    have hconstant := congrArg (·[position]?) hpairs
    simp only [List.getElem?_map, hpair, Option.map_some] at hconstant
    obtain ⟨constant, hconstant, hsame⟩ := Option.map_eq_some_iff.1 hconstant.symm
    refine ⟨constant, hconstant, ?_⟩
    rw [← hsame, ← EnumMember.eq_nextAfter_iff]
    split <;> simp_all

/-- The largest value twice in a row. -/
def limits : List (String × Int64 × Option String) :=
  [("Top", Int64.maxValue, none), ("Last", Int64.maxValue, none)]

/-- The second of the two largest values is lost. -/
theorem not_forall_numbered : ¬ ∀ (constants : List (String × Int64 × Option String))
    (members : List EnumMember), Definition.ofEnumeration (.compact constants) =
      .enumeration members →
    numbered members = constants.map fun constant ↦ (constant.1, constant.2.1.toInt) := by
  intro hall
  have hlimits := hall limits _ rfl
  revert hlimits
  decide

end TypeScript

end TypedClient
