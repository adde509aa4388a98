import TypedClient.Proofs.TypeScript.Casing
import TypedClient.Rendering.Methods

/-!
# Names of parameters inside a method

The words of a name, joined in camel case, are its stem. A stem that could not
stand for a parameter receives a mark: an underscore in front of a digit or of a
reserved word, and one behind a name that the body declares itself. Whatever the
name is, the result is an identifier that no statement of a body declares. Two
names have the same one exactly if their words join to the same name, if their
joined words differ in the case of leading capitals, or if one of the stems
already has the mark that the other one receives.
-/

namespace TypedClient.TypeScript

/-- The words of a name in one piece. -/
def joined (name : String) : List Char :=
  joinWords (wordsFrom [] name.toList)

def stem (name : String) : List Char :=
  camelChars (joined name)

/-- The stem cannot stand for a value. -/
def NeedsFront (stem : List Char) : Prop :=
  (∃ c ∈ stem.head?, c.isDigit = true) ∨ isReserved (String.ofList stem) = true

instance (stem : List Char) : Decidable (NeedsFront stem) :=
  inferInstanceAs (Decidable (_ ∨ _))

def IsLocal (stem : List Char) : Prop :=
  String.ofList stem ∈ methodLocals

instance (stem : List Char) : Decidable (IsLocal stem) :=
  inferInstanceAs (Decidable (_ ∈ _))

def mark (stem : List Char) : List Char :=
  if stem = [] then emptyIdentifier.toList
  else if NeedsFront stem then '_' :: stem
  else if IsLocal stem then stem ++ ['_']
  else stem

theorem not_needsFront_iff {stem : List Char} :
    ¬ NeedsFront stem ↔
      (∀ c ∈ stem.head?, c.isDigit = false) ∧ isReserved (String.ofList stem) = false := by
  simp [NeedsFront]

theorem isReserved_underscore (name : List Char) :
    isReserved (String.ofList ('_' :: name)) = false := by
  have hwords : ∀ word ∈ reservedWords, word.toList.head? ≠ some '_' := by decide
  rw [isReserved, decide_eq_false_iff_not]
  intro hmem
  exact hwords _ hmem (by rw [String.toList_ofList]; rfl)

theorem camelChars_eq_nil_iff {name : List Char} : camelChars name = [] ↔ name = [] := by
  obtain ⟨capitals, rest, hcut⟩ := exists_cut name
  rw [camelChars_of_cut hcut, hcut.name_eq]
  simp

theorem guardReserved_guardDigit (stem : List Char) :
    guardReserved (guardDigit stem) = if NeedsFront stem then '_' :: stem else stem := by
  cases stem with
  | nil => simp [guardDigit, guardReserved, NeedsFront, isReserved, reservedWords]
  | cons c rest =>
    by_cases hdigit : c.isDigit = true
    · have hfront : NeedsFront (c :: rest) := .inl ⟨c, rfl, hdigit⟩
      have hunreserved := isReserved_underscore (c :: rest)
      rw [if_pos hfront, guardDigit, if_pos hdigit, guardReserved, hunreserved]
      rfl
    · simp [guardDigit, guardReserved, hdigit, NeedsFront]

theorem identifierChars_of_stem_eq_nil {name : String} (h : stem name = []) :
    identifierChars name.toList = emptyIdentifier.toList := by
  have hjoined : joinWords (wordsFrom [] name.toList) = [] := camelChars_eq_nil_iff.1 h
  rw [identifierChars, hjoined]

theorem identifierChars_of_stem_ne_nil {name : String} (h : stem name ≠ []) :
    identifierChars name.toList =
      if NeedsFront (stem name) then '_' :: stem name else stem name := by
  rw [identifierChars]
  split
  · rename_i hjoined
    exact absurd (camelChars_eq_nil_iff.2 hjoined) h
  · exact guardReserved_guardDigit _

theorem not_isLocal_underscore (name : List Char) : ¬ IsLocal ('_' :: name) := by
  have hlocals : ∀ word ∈ methodLocals, word.toList.head? ≠ some '_' := by decide
  intro hmem
  exact hlocals _ hmem (by rw [String.toList_ofList]; rfl)

/-- A parameter has the name of its stem, with the mark it needs. -/
theorem toList_localName (name : String) : (localName name).toList = mark (stem name) := by
  have hlocal : localName name = if IsLocal (identifierChars name.toList) then
      identifier name ++ "_" else identifier name := rfl
  have hident : (identifier name).toList = identifierChars name.toList := String.toList_ofList
  rw [hlocal, mark]
  by_cases hnil : stem name = []
  · have hchars := identifierChars_of_stem_eq_nil hnil
    rw [if_pos hnil, if_neg (hchars ▸ not_isLocal_underscore _), hident, hchars]
  · have hchars := identifierChars_of_stem_ne_nil hnil
    rw [if_neg hnil]
    by_cases hfront : NeedsFront (stem name)
    · rw [if_pos hfront] at hchars ⊢
      rw [if_neg (hchars ▸ not_isLocal_underscore _), hident, hchars]
    · rw [if_neg hfront] at hchars ⊢
      rw [hchars]
      by_cases hlocals : IsLocal (stem name)
      · rw [if_pos hlocals, if_pos hlocals, String.toList_append, hident, hchars]
        rfl
      · rw [if_neg hlocals, if_neg hlocals, hident, hchars]

theorem not_isReserved_of_getLast {name : List Char} (h : name.getLast? = some '_') :
    isReserved (String.ofList name) = false := by
  have hwords : ∀ word ∈ reservedWords, word.toList.getLast? ≠ some '_' := by decide
  rw [isReserved, decide_eq_false_iff_not]
  intro hmem
  exact hwords _ hmem (by rw [String.toList_ofList, h])

theorem not_isLocal_of_getLast {name : List Char} (h : name.getLast? = some '_') :
    ¬ IsLocal name := by
  have hlocals : ∀ word ∈ methodLocals, word.toList.getLast? ≠ some '_' := by decide
  intro hmem
  exact hlocals _ hmem (by rw [String.toList_ofList, h])

theorem exists_head_of_isLocal {stem : List Char} (h : IsLocal stem) :
    ∃ c rest, stem = c :: rest ∧ c.isDigit = false ∧ c ≠ '_' := by
  have hlocals : ∀ word ∈ methodLocals, word.toList.head?.any
      (fun c ↦ !c.isDigit && c != '_') = true := by decide
  have hstem := hlocals _ h
  rw [String.toList_ofList] at hstem
  cases stem with
  | nil => simp at hstem
  | cons c rest => exact ⟨c, rest, rfl, by simpa using hstem⟩

theorem not_needsFront_of_isLocal {stem : List Char} (h : IsLocal stem) : ¬ NeedsFront stem := by
  have hlocals : ∀ word ∈ methodLocals, isReserved word = false := by decide
  refine not_needsFront_iff.2 ⟨?_, hlocals _ h⟩
  obtain ⟨d, rest, rfl, hd, -⟩ := exists_head_of_isLocal h
  simpa using hd

/-! ## Names of parameters are identifiers -/

theorem isIdentChar_iff {c : Char} : isIdentChar c = true ↔
    c.isUpper = true ∨ c.isLower = true ∨ c.isDigit = true ∨ c = '_' ∨ c = '$' := by
  have halpha : c.isAlpha = (c.isUpper || c.isLower) := rfl
  simp only [isIdentChar, Text.isAsciiAlphanumeric, Char.isAlphanum, halpha, Bool.or_eq_true,
    beq_iff_eq, or_assoc]

theorem isIdentChar_toLower {c : Char} (h : isIdentChar c = true) :
    isIdentChar c.toLower = true := by
  cases hupper : c.isUpper with
  | false => rwa [toLower_eq_self hupper]
  | true => exact isIdentChar_iff.2 (.inr (.inl (isLower_toLower hupper)))

theorem isIdentChar_toUpper {c : Char} (h : isIdentChar c = true) :
    isIdentChar c.toUpper = true := by
  cases hlower : c.isLower with
  | false => rwa [toUpper_eq_self hlower]
  | true => exact isIdentChar_iff.2 (.inl (isUpper_toUpper hlower))

theorem toNat_lt_of_isIdentChar {c : Char} (h : isIdentChar c = true) : c.toNat < 128 := by
  have hdigit : c.isDigit = true → 48 ≤ c.toNat ∧ c.toNat ≤ 57 := fun hdigit ↦
    (Bool.and_eq_true_iff.1 hdigit).imp of_decide_eq_true of_decide_eq_true
  rcases isIdentChar_iff.1 h with h | h | h | rfl | rfl
  · exact Nat.lt_of_le_of_lt (isUpper_iff.1 h).2 (by decide)
  · exact Nat.lt_of_le_of_lt (isLower_iff.1 h).2 (by decide)
  · exact Nat.lt_of_le_of_lt (hdigit h).2 (by decide)
  · decide
  · decide

theorem isIdentChar_of_mem_wordsFrom {pending name word : List Char}
    (hpending : ∀ c ∈ pending, isIdentChar c = true) (hword : word ∈ wordsFrom pending name) :
    ∀ c ∈ word, isIdentChar c = true := by
  induction name generalizing pending with
  | nil =>
    simp only [wordsFrom] at hword
    split at hword
    · simp at hword
    · obtain rfl := List.mem_singleton.1 hword
      simpa using hpending
  | cons d rest ih =>
    simp only [wordsFrom] at hword
    split at hword
    · rename_i hd
      exact ih (List.forall_mem_cons.2 ⟨hd, hpending⟩) hword
    · split at hword
      · exact ih (by simp) hword
      · rcases List.mem_cons.1 hword with rfl | hword
        · simpa using hpending
        · exact ih (by simp) hword

theorem isIdentChar_of_mem_titleFrom {name : List Char} {fresh : Bool}
    (hname : ∀ c ∈ name, isIdentChar c = true) :
    ∀ c ∈ Name.titleFrom fresh name, isIdentChar c = true := by
  induction name generalizing fresh with
  | nil => simp [Name.titleFrom]
  | cons d rest ih =>
    obtain ⟨hd, hrest⟩ := List.forall_mem_cons.1 hname
    simp only [Name.titleFrom]
    split
    · exact ih hrest
    · split
      · rw [Text.uppercase_of_ascii (toNat_lt_of_isIdentChar hd)]
        exact List.forall_mem_cons.2 ⟨isIdentChar_toUpper hd, ih hrest⟩
      · exact List.forall_mem_cons.2 ⟨hd, ih hrest⟩

theorem isIdentChar_of_mem_joined {name : String} :
    ∀ c ∈ joined name, isIdentChar c = true := by
  have hwords : ∀ word ∈ wordsFrom [] name.toList, ∀ c ∈ word, isIdentChar c = true :=
    fun word hword ↦ isIdentChar_of_mem_wordsFrom (by simp) hword
  unfold joined
  cases hsplit : wordsFrom [] name.toList with
  | nil => simp [joinWords]
  | cons first rest =>
    rw [hsplit] at hwords
    obtain ⟨hfirst, hrest⟩ := List.forall_mem_cons.1 hwords
    intro c hc
    rcases List.mem_append.1 hc with hc | hc
    · exact hfirst c hc
    · obtain ⟨word, hword, hc⟩ := List.mem_flatMap.1 hc
      exact isIdentChar_of_mem_titleFrom (hrest word hword) c hc

theorem isIdentChar_of_mem_stem {name : String} : ∀ c ∈ stem name, isIdentChar c = true := by
  have hjoined := @isIdentChar_of_mem_joined name
  obtain ⟨capitals, rest, hcut⟩ := exists_cut (joined name)
  rw [hcut.name_eq] at hjoined
  rw [stem, camelChars_of_cut hcut]
  intro c hc
  rcases List.mem_append.1 hc with hc | hc
  · obtain ⟨d, hd, rfl⟩ := List.mem_map.1 hc
    exact isIdentChar_toLower (hjoined d (List.mem_append_left _ hd))
  · exact hjoined c (List.mem_append_right _ hc)

/-- A name that can be written for a value: identifier characters, no digit in front, and no
reserved word. -/
structure IsIdentifier (name : List Char) : Prop where
  ne_nil : name ≠ []
  chars : ∀ c ∈ name, isIdentChar c = true
  head : ∀ c ∈ name.head?, c.isDigit = false
  unreserved : isReserved (String.ofList name) = false

theorem isIdentifier_underscore {name : List Char} (h : ∀ c ∈ name, isIdentChar c = true) :
    IsIdentifier ('_' :: name) where
  ne_nil := List.cons_ne_nil _ _
  chars := List.forall_mem_cons.2 ⟨rfl, h⟩
  head := by simp
  unreserved := isReserved_underscore name

theorem isIdentifier_of_not_needsFront {stem : List Char} (hnil : stem ≠ [])
    (h : ∀ c ∈ stem, isIdentChar c = true) (hfront : ¬ NeedsFront stem) : IsIdentifier stem where
  ne_nil := hnil
  chars := h
  head := (not_needsFront_iff.1 hfront).1
  unreserved := (not_needsFront_iff.1 hfront).2

theorem IsIdentifier.not_needsFront {name : List Char} (h : IsIdentifier name) :
    ¬ NeedsFront name :=
  not_needsFront_iff.2 ⟨h.head, h.unreserved⟩

theorem isIdentifier_mark {stem : List Char} (h : ∀ c ∈ stem, isIdentChar c = true) :
    IsIdentifier (mark stem) := by
  rw [mark]
  split_ifs with hnil hfront hlocal
  · exact isIdentifier_underscore (List.all_eq_true.1 (by decide))
  · exact isIdentifier_underscore h
  · obtain ⟨c, rest, rfl, hc, -⟩ := exists_head_of_isLocal hlocal
    have hlast : (c :: rest ++ ['_']).getLast? = some '_' := List.getLast?_concat
    exact
      { ne_nil := List.cons_ne_nil _ _
        chars := List.forall_mem_append.2 ⟨h, by simp [isIdentChar]⟩
        head := by simpa using hc
        unreserved := not_isReserved_of_getLast hlast }
  · exact isIdentifier_of_not_needsFront hnil h hfront

theorem not_isLocal_mark (stem : List Char) : ¬ IsLocal (mark stem) := by
  rw [mark]
  split_ifs with hnil hfront hlocal
  · exact not_isLocal_underscore _
  · exact not_isLocal_underscore _
  · exact not_isLocal_of_getLast List.getLast?_concat
  · exact hlocal

theorem isIdentifier_localName (name : String) : IsIdentifier (localName name).toList := by
  rw [toList_localName]
  exact isIdentifier_mark isIdentChar_of_mem_stem

/-- No parameter has a capital in front. -/
theorem head_localName (name : String) :
    ∀ c ∈ (localName name).toList.head?, c.isUpper = false := by
  have hstem : ∀ c ∈ (stem name).head?, c.isUpper = false := head_camelChars
  rw [toList_localName, mark]
  split_ifs with hnil hfront hlocal
  · simp [emptyIdentifier]
  · simp
  · rwa [List.head?_append_of_ne_nil _ hnil]
  · exact hstem

theorem exists_wordsFrom {pending : List Char} (hne : pending ≠ []) (name : List Char) :
    ∃ word rest, wordsFrom pending name = (pending.reverse ++ word) :: rest := by
  induction name generalizing pending with
  | nil => exact ⟨[], [], by simp [wordsFrom, hne]⟩
  | cons c name ih =>
    rw [wordsFrom]
    split_ifs
    · obtain ⟨word, rest, heq⟩ := ih (List.cons_ne_nil c pending)
      exact ⟨c :: word, rest, by simp [heq]⟩
    · exact ⟨[], wordsFrom [] name, by simp⟩

/-- Names may be told apart by a letter in front that no word of the language starts with. -/
structure Separates (letter : Char) : Prop where
  isIdentChar : isIdentChar letter = true
  not_isUpper : letter.isUpper = false
  not_isDigit : letter.isDigit = false
  head_ne : ∀ word ∈ reservedWords ++ methodLocals, word.toList.head? ≠ some letter

theorem Separates.head_localName {letter : Char} (h : Separates letter) (name : String) :
    (localName (String.ofList (letter :: name.toList))).toList.head? = some letter := by
  obtain ⟨word, rest, hwords⟩ := exists_wordsFrom (List.cons_ne_nil letter []) name.toList
  have hjoined : joined (String.ofList (letter :: name.toList)) =
      letter :: (word ++ rest.flatMap Name.titleChars) := by
    rw [joined, String.toList_ofList, wordsFrom, if_pos h.isIdentChar, hwords]
    rfl
  have hstem : stem (String.ofList (letter :: name.toList)) =
      letter :: (word ++ rest.flatMap Name.titleChars) := by
    rw [stem, hjoined]
    simp [camelChars, h.not_isUpper]
  have hword : String.ofList (letter :: (word ++ rest.flatMap Name.titleChars)) ∉
      reservedWords ++ methodLocals := by
    intro hmem
    exact h.head_ne _ hmem (by rw [String.toList_ofList]; rfl)
  rw [List.mem_append, not_or] at hword
  obtain ⟨hreservedWord, hlocal⟩ : _ ∧ ¬ IsLocal _ := hword
  have hfront : ¬ NeedsFront (letter :: (word ++ rest.flatMap Name.titleChars)) :=
    not_needsFront_iff.2 ⟨by simpa using h.not_isDigit, decide_eq_false hreservedWord⟩
  rw [toList_localName, hstem, mark, if_neg (List.cons_ne_nil _ _), if_neg hfront, if_neg hlocal]
  rfl

theorem separates_x : Separates 'x' where
  isIdentChar := by decide
  not_isUpper := by decide
  not_isDigit := by decide
  head_ne := by decide

theorem separates_z : Separates 'z' where
  isIdentChar := by decide
  not_isUpper := by decide
  not_isDigit := by decide
  head_ne := by decide

/-- No parameter has the name of something that the body declares. -/
theorem localName_not_mem_methodLocals (name : String) : localName name ∉ methodLocals := by
  rw [← String.ofList_toList (s := localName name), toList_localName]
  exact not_isLocal_mark _

/-! ## Stems that receive the same name -/

/-- The second stem has the mark that the first one receives. -/
inductive Marked : List Char → List Char → Prop
  | empty : Marked [] emptyIdentifier.toList
  | front (stem : List Char) (hfront : NeedsFront stem) : Marked stem ('_' :: stem)
  | behind (stem : List Char) (hlocal : IsLocal stem) : Marked stem (stem ++ ['_'])

theorem mark_underscore (name : List Char) : mark ('_' :: name) = '_' :: name := by
  have hfront : ¬ NeedsFront ('_' :: name) :=
    not_needsFront_iff.2 ⟨by simp, isReserved_underscore name⟩
  rw [mark, if_neg (List.cons_ne_nil _ _), if_neg hfront, if_neg (not_isLocal_underscore name)]

theorem not_needsFront_nil : ¬ NeedsFront [] := by
  simp [NeedsFront, isReserved, reservedWords]

theorem not_needsFront_empty : ¬ NeedsFront ['e', 'm', 'p', 't', 'y'] := by
  simp [NeedsFront, isReserved, reservedWords]

/-- A name that has its mark needs none. -/
theorem Marked.mark_eq {left right : List Char} (h : Marked left right) :
    mark left = right ∧ mark right = right := by
  cases h with
  | empty => exact ⟨if_pos rfl, mark_underscore _⟩
  | front _ hfront =>
    have hne : left ≠ [] := by
      rintro rfl
      exact not_needsFront_nil hfront
    exact ⟨by rw [mark, if_neg hne, if_pos hfront], mark_underscore _⟩
  | behind _ hlocal =>
    have hfront := not_needsFront_of_isLocal hlocal
    obtain ⟨c, rest, rfl, hc, -⟩ := exists_head_of_isLocal hlocal
    have hlast : (c :: rest ++ ['_']).getLast? = some '_' := List.getLast?_concat
    constructor
    · rw [mark, if_neg (List.cons_ne_nil c rest), if_neg hfront, if_pos hlocal]
    · have hfront : ¬ NeedsFront (c :: rest ++ ['_']) :=
        not_needsFront_iff.2 ⟨by simpa using hc, not_isReserved_of_getLast hlast⟩
      rw [mark, if_neg (by simp), if_neg hfront, if_neg (not_isLocal_of_getLast hlast)]

theorem mark_eq_self_or_marked (stem : List Char) :
    mark stem = stem ∨ Marked stem (mark stem) := by
  rw [mark]
  split_ifs with hnil hfront hlocal
  · exact .inr (hnil ▸ .empty)
  · exact .inr (.front stem hfront)
  · exact .inr (.behind stem hlocal)
  · exact .inl rfl

/-- Takes a mark off. -/
def unmark (name : List Char) : List Char :=
  if name = emptyIdentifier.toList then []
  else if name.head? = some '_' then name.tail
  else name.dropLast

theorem Marked.unmark_eq {stem name : List Char} (h : Marked stem name) : unmark name = stem := by
  cases h with
  | empty => rfl
  | front _ hfront =>
    have hempty : '_' :: stem ≠ emptyIdentifier.toList := by
      intro heq
      obtain rfl : stem = ['e', 'm', 'p', 't', 'y'] := (List.cons.inj heq).2
      exact not_needsFront_empty hfront
    rw [unmark, if_neg hempty, if_pos List.head?_cons, List.tail_cons]
  | behind _ hlocal =>
    obtain ⟨c, rest, rfl, -, hc⟩ := exists_head_of_isLocal hlocal
    have hempty : c :: rest ++ ['_'] ≠ emptyIdentifier.toList := by
      intro heq
      exact hc (List.cons.inj heq).1
    rw [unmark, if_neg hempty, if_neg (by simpa using hc), List.dropLast_concat]

/-- Two stems receive one name exactly if they are equal or the one has the mark of the other. -/
theorem mark_eq_mark_iff {left right : List Char} :
    mark left = mark right ↔ left = right ∨ Marked left right ∨ Marked right left := by
  constructor
  · intro h
    rcases mark_eq_self_or_marked left with hleft | hleft
    · rcases mark_eq_self_or_marked right with hright | hright
      · exact .inl (by rw [← hleft, h, hright])
      · exact .inr (.inr (by rwa [← h, hleft] at hright))
    · rcases mark_eq_self_or_marked right with hright | hright
      · exact .inr (.inl (by rwa [h, hright] at hleft))
      · exact .inl (by rw [← hleft.unmark_eq, h, hright.unmark_eq])
  · rintro (rfl | hmarked | hmarked)
    · rfl
    · rw [hmarked.mark_eq.1, hmarked.mark_eq.2]
    · rw [hmarked.mark_eq.1, hmarked.mark_eq.2]

/-- The name of the first parameter becomes that of the second one by leaving out what separates
its words, by the case of its leading capitals, or by a mark. -/
inductive Merges (left right : String) : Prop
  | words (h : joined left = joined right)
  | capitals (h : Recased (joined left) (joined right))
  | mark (h : Marked (stem left) (stem right))

/-- Two parameters have one identifier exactly if their names merge. -/
theorem localName_eq_localName_iff {left right : String} :
    localName left = localName right ↔ Merges left right ∨ Merges right left := by
  rw [← String.toList_inj, toList_localName, toList_localName, mark_eq_mark_iff, stem, stem,
    camelChars_eq_camelChars_iff]
  constructor
  · rintro ((hwords | hcapitals | hcapitals) | hmarked | hmarked)
    · exact .inl (.words hwords)
    · exact .inl (.capitals hcapitals)
    · exact .inr (.capitals hcapitals)
    · exact .inl (.mark hmarked)
    · exact .inr (.mark hmarked)
  · rintro ((hwords | hcapitals | hmarked) | (hwords | hcapitals | hmarked))
    · exact .inl (.inl hwords)
    · exact .inl (.inr (.inl hcapitals))
    · exact .inr (.inl hmarked)
    · exact .inl (.inl hwords.symm)
    · exact .inl (.inr (.inr hcapitals))
    · exact .inr (.inr hmarked)

end TypedClient.TypeScript
