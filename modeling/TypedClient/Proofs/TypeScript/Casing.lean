import Mathlib.Data.List.Basic
import Mathlib.Data.List.TakeWhile
import TypedClient.TypeScript.Identifier

/-!
# Names that camel case merges

Camel case lowers the capitals of the first word of a name and keeps the rest.
It takes two different names to the same one exactly if they differ in the case
of such capitals: one of the names has a whole word of capitals in front, and
the other one has the same word in small letters, except that its first letter
may be a capital as well.
-/

namespace TypedClient.TypeScript

/-! ## Capitals and small letters -/

theorem isUpper_iff {c : Char} : c.isUpper = true ↔ 65 ≤ c.toNat ∧ c.toNat ≤ 90 :=
  decide_eq_true_iff

theorem isLower_iff {c : Char} : c.isLower = true ↔ 97 ≤ c.toNat ∧ c.toNat ≤ 122 :=
  Bool.and_eq_true_iff.trans (and_congr decide_eq_true_iff decide_eq_true_iff)

theorem toLower_eq_self {c : Char} (h : c.isUpper = false) : c.toLower = c :=
  dif_neg (mt isUpper_iff.2 (ne_true_of_eq_false h))

theorem toUpper_eq_self {c : Char} (h : c.isLower = false) : c.toUpper = c :=
  dif_neg (mt isLower_iff.2 (ne_true_of_eq_false h))

theorem toNat_toLower {c : Char} (h : c.isUpper = true) : c.toLower.toNat = c.toNat + 32 := by
  have hcode := isUpper_iff.1 h
  have hchar : c.toLower = ⟨c.val + ('a'.val - 'A'.val), _⟩ := dif_pos hcode
  have hoffset : ('a'.val - 'A'.val).toNat = 32 := rfl
  calc c.toLower.toNat
    _ = (c.toNat + 32) % 2 ^ 32 := by rw [hchar, Char.toNat, UInt32.toNat_add, hoffset, Char.toNat]
    _ = c.toNat + 32 := by omega

theorem toNat_toUpper {c : Char} (h : c.isLower = true) : c.toUpper.toNat + 32 = c.toNat := by
  have hcode := isLower_iff.1 h
  have hchar : c.toUpper = ⟨c.val + ('A'.val - 'a'.val), _⟩ := dif_pos hcode
  -- the offset is negative, and the codes are added modulo the size of a word
  have hoffset : ('A'.val - 'a'.val).toNat = 2 ^ 32 - 32 := by
    simp only [Char.reduceVal, UInt32.reduceSub, UInt32.reduceToNat, Nat.reducePow, Nat.reduceSub]
  calc c.toUpper.toNat + 32
    _ = (c.toNat + (2 ^ 32 - 32)) % 2 ^ 32 + 32 := by
      rw [hchar, Char.toNat, UInt32.toNat_add, hoffset, Char.toNat]
    _ = c.toNat := by omega

@[simp]
theorem isUpper_toLower (c : Char) : c.toLower.isUpper = false := by
  cases hupper : c.isUpper with
  | false => rw [toLower_eq_self hupper, hupper]
  | true =>
    have hcode := isUpper_iff.1 hupper
    rw [← Bool.not_eq_true, isUpper_iff, toNat_toLower hupper]
    omega

theorem isLower_toLower {c : Char} (h : c.isUpper = true) : c.toLower.isLower = true := by
  have hcode := isUpper_iff.1 h
  rw [isLower_iff, toNat_toLower h]
  omega

theorem isUpper_toUpper {c : Char} (h : c.isLower = true) : c.toUpper.isUpper = true := by
  have hcode := isLower_iff.1 h
  have hnat := toNat_toUpper h
  rw [isUpper_iff]
  omega

/-- Different capitals are different in small letters as well. -/
theorem toLower_inj_of_isUpper {c d : Char} (hc : c.isUpper = true) (hd : d.isUpper = true)
    (h : c.toLower = d.toLower) : c = d := by
  have hnat := congrArg Char.toNat h
  rw [toNat_toLower hc, toNat_toLower hd] at hnat
  exact Char.toNat_inj.1 (Nat.add_right_cancel hnat)

/-! ## The first word of a name -/

/-- The capitals in front of the rest are the first word of a name. A capital before a small
letter starts the next word, unless it is the only one. -/
inductive FirstWord : List Char → List Char → Prop
  | none (rest : List Char) (hrest : ∀ c ∈ rest.head?, c.isUpper = false) : FirstWord [] rest
  | whole (capitals : List Char) : FirstWord capitals []
  | initial (c d : Char) (rest : List Char) (hd : d.isUpper = false) : FirstWord [c] (d :: rest)
  | acronym (capitals : List Char) (c d : Char) (rest : List Char) (hne : capitals ≠ [])
      (hc : c.isUpper = true) (hd : d.isUpper = false) : FirstWord capitals (c :: d :: rest)

/-- A name, cut behind the capitals of its first word. -/
structure Cut (name capitals rest : List Char) : Prop where
  name_eq : name = capitals ++ rest
  upper : ∀ c ∈ capitals, c.isUpper = true
  firstWord : FirstWord capitals rest

theorem exists_cut (name : List Char) : ∃ capitals rest, Cut name capitals rest := by
  have hname := List.takeWhile_append_dropWhile (p := Char.isUpper) (l := name)
  have hupper : ∀ c ∈ name.takeWhile Char.isUpper, c.isUpper = true := fun c hc ↦
    List.mem_takeWhile_imp hc
  have hhead := List.head?_dropWhile_not Char.isUpper name
  cases hrest : name.dropWhile Char.isUpper with
  | nil =>
    refine ⟨name.takeWhile Char.isUpper, [], ?_, hupper, .whole _⟩
    rw [← hrest, hname]
  | cons d rest =>
    rw [hrest] at hname hhead
    have hd : d.isUpper = false := hhead
    rcases List.eq_nil_or_concat (name.takeWhile Char.isUpper) with hnone | ⟨front, c, hlast⟩
    · rw [hnone] at hname
      exact ⟨[], d :: rest, hname.symm, by simp, .none _ (by simpa using hd)⟩
    · rw [hlast, List.concat_eq_append] at hname hupper
      by_cases hfront : front = []
      · subst hfront
        exact ⟨[c], d :: rest, hname.symm, hupper, .initial c d rest hd⟩
      · refine ⟨front, c :: d :: rest, ?_, ?_, .acronym front c d rest hfront ?_ hd⟩
        · rw [← hname, List.append_assoc, List.singleton_append]
        · exact fun c hc ↦ hupper c (List.mem_append_left _ hc)
        · exact hupper c (by simp)

theorem camelChars_of_cut {name capitals rest : List Char} (h : Cut name capitals rest) :
    camelChars name = capitals.map Char.toLower ++ rest := by
  obtain ⟨rfl, hupper, hword⟩ := h
  have hrun := @List.takeWhile_append_of_pos _ Char.isUpper capitals rest hupper
  rw [camelChars, hrun]
  cases hword with
  | none rest hrest =>
    have hnone : rest.takeWhile Char.isUpper = [] := by
      cases rest with
      | nil => rfl
      | cons d rest => simp [hrest d rfl]
    simp [hnone]
  | whole => simp
  | initial c d rest hd => simp [hd]
  | acronym _ c d rest hne hc hd =>
    have hpos := List.length_pos_of_ne_nil hne
    have hlength : (capitals ++ (c :: d :: rest).takeWhile Char.isUpper).length =
        capitals.length + 1 := by
      simp [hc, hd]
    have hless : ¬ (capitals.length + 1 = (capitals ++ c :: d :: rest).length ∨
        capitals.length + 1 ≤ 1) := by
      simp
      omega
    simp only [hlength, if_neg hless, Nat.add_sub_cancel, List.take_left, List.drop_left]

theorem head_camelChars {name : List Char} : ∀ c ∈ (camelChars name).head?, c.isUpper = false := by
  obtain ⟨capitals, rest, hcut⟩ := exists_cut name
  rw [camelChars_of_cut hcut]
  cases capitals with
  | cons c capitals => simp
  | nil =>
    cases hcut.firstWord with
    | none _ hrest => simpa using hrest
    | whole => simp
    | acronym _ _ _ _ hne => exact absurd rfl hne

/-! ## Names with the same camel case -/

theorem eq_of_map_toLower_eq {left right : List Char} (hleft : ∀ c ∈ left, c.isUpper = true)
    (hright : ∀ c ∈ right, c.isUpper = true)
    (h : left.map Char.toLower = right.map Char.toLower) : left = right := by
  induction left generalizing right with
  | nil => simpa using h.symm
  | cons c left ih =>
    cases right with
    | nil => simp at h
    | cons d right =>
      simp only [List.map_cons, List.cons.injEq] at h
      rw [toLower_inj_of_isUpper (hleft c (by simp)) (hright d (by simp)) h.1,
        ih (fun c hc ↦ hleft c (by simp [hc])) (fun c hc ↦ hright c (by simp [hc])) h.2]

/-- The first name has a whole word of capitals in front. The second one has this word in small
letters, of which the first may be a capital all the same. -/
def Recased (long short : List Char) : Prop :=
  ∃ front word rest, Cut long (front ++ word) rest ∧
    short = front ++ word.map Char.toLower ++ rest ∧ front.length ≤ 1 ∧ word ≠ []

/-- A capital of which only small letters follow may stand alone in front of them. -/
theorem cut_lowered {front word rest : List Char} (hfront : ∀ c ∈ front, c.isUpper = true)
    (hlength : front.length ≤ 1) (hword : word ≠ []) :
    Cut (front ++ word.map Char.toLower ++ rest) front (word.map Char.toLower ++ rest) := by
  obtain ⟨d, word, rfl⟩ := List.exists_cons_of_ne_nil hword
  refine ⟨List.append_assoc _ _ _, hfront, ?_⟩
  have hd := isUpper_toLower d
  match front, hlength with
  | [], _ => exact .none _ (by simp)
  | [c], _ => exact .initial c _ _ hd

theorem length_le_one_of_firstWord {front rest : List Char} {d : Char}
    (h : FirstWord front (d.toLower :: rest)) : front.length ≤ 1 := by
  cases h with
  | none => simp
  | initial => simp
  | acronym _ _ _ _ _ hc => simp at hc

theorem Recased.camelChars_eq {long short : List Char} (h : Recased long short) :
    camelChars long = camelChars short := by
  obtain ⟨front, word, rest, hlong, rfl, hlength, hword⟩ := h
  have hfront : ∀ c ∈ front, c.isUpper = true := fun c hc ↦
    hlong.upper c (List.mem_append_left _ hc)
  rw [camelChars_of_cut hlong, camelChars_of_cut (cut_lowered hfront hlength hword),
    List.map_append, List.append_assoc]

theorem Recased.ne {long short : List Char} (h : Recased long short) : long ≠ short := by
  obtain ⟨front, word, rest, hlong, rfl, hlength, hword⟩ := h
  obtain ⟨d, word, rfl⟩ := List.exists_cons_of_ne_nil hword
  rw [hlong.name_eq]
  intro heq
  have hd : d.isUpper = true := hlong.upper d (by simp)
  have hlower : d = d.toLower ∧ word = word.map Char.toLower := by simpa using heq
  rw [hlower.1, isUpper_toLower] at hd
  contradiction

/-- A single capital in front, as names of actions have it. -/
def Capitalized (name : List Char) : Prop :=
  ∃ c d rest, name = c :: d :: rest ∧ c.isUpper = true ∧ d.isUpper = false

theorem not_recased_of_capitalized {long short : List Char} (hlong : Capitalized long)
    (hshort : Capitalized short) : ¬ Recased long short := by
  rintro ⟨front, word, rest, hcut, rfl, -, hword⟩
  obtain ⟨c, d, tail, rfl, -, hd⟩ := hlong
  obtain ⟨e, f, after, heq, he, -⟩ := hshort
  -- the second letter is small, so the word is the first letter alone
  have hname := hcut.name_eq
  have hupper := hcut.upper
  cases front with
  | nil =>
    obtain ⟨x, word, rfl⟩ := List.exists_cons_of_ne_nil hword
    simp only [List.nil_append, List.map_cons, List.cons_append, List.cons.injEq] at heq
    rw [← heq.1, isUpper_toLower] at he
    contradiction
  | cons x front =>
    obtain ⟨y, more, hmore⟩ := List.exists_cons_of_ne_nil
      (List.append_ne_nil_of_right_ne_nil front hword)
    simp only [List.cons_append, hmore, List.cons.injEq] at hname
    have hy := hupper y (by simp [hmore])
    rw [← hname.2.1, hd] at hy
    contradiction

/-- Where the lowered capitals of the one name reach as far as those of the other, the names are
equal, or the other one has more of them. -/
theorem eq_or_recased_of_append
    {left right leftCapitals leftRest rightCapitals rightRest : List Char}
    (hleft : Cut left leftCapitals leftRest) (hright : Cut right rightCapitals rightRest)
    {middle : List Char}
    (hcapitals : rightCapitals.map Char.toLower = leftCapitals.map Char.toLower ++ middle)
    (hrest : leftRest = middle ++ rightRest) : left = right ∨ Recased right left := by
  obtain ⟨front, word, rfl, hfront, rfl⟩ := List.map_eq_append_iff.1 hcapitals
  have hupper := hright.upper
  obtain rfl : front = leftCapitals :=
    eq_of_map_toLower_eq (fun c hc ↦ hupper c (List.mem_append_left _ hc)) hleft.upper hfront
  by_cases hword : word = []
  · left
    rw [hleft.name_eq, hright.name_eq, hrest, hword]
    simp
  · right
    have hname : left = front ++ word.map Char.toLower ++ rightRest := by
      rw [hleft.name_eq, hrest, List.append_assoc]
    refine ⟨front, word, rightRest, hright, hname, ?_, hword⟩
    obtain ⟨d, word, rfl⟩ := List.exists_cons_of_ne_nil hword
    have hfirst := hleft.firstWord
    rw [hrest] at hfirst
    exact length_le_one_of_firstWord hfirst

/-- Camel case merges no other names than those that differ in the case of leading capitals. -/
theorem camelChars_eq_camelChars_iff {left right : List Char} :
    camelChars left = camelChars right ↔
      left = right ∨ Recased left right ∨ Recased right left := by
  constructor
  · intro h
    obtain ⟨leftCapitals, leftRest, hleft⟩ := exists_cut left
    obtain ⟨rightCapitals, rightRest, hright⟩ := exists_cut right
    rw [camelChars_of_cut hleft, camelChars_of_cut hright] at h
    rcases List.append_eq_append_iff.1 h with
      ⟨middle, hcapitals, hrest⟩ | ⟨middle, hcapitals, hrest⟩
    · exact (eq_or_recased_of_append hleft hright hcapitals hrest).imp_right .inr
    · rcases eq_or_recased_of_append hright hleft hcapitals hrest with heq | hrecased
      · exact .inl heq.symm
      · exact .inr (.inl hrecased)
  · rintro (rfl | hrecased | hrecased)
    · rfl
    · exact hrecased.camelChars_eq
    · exact hrecased.camelChars_eq.symm

end TypedClient.TypeScript
