import TypedClient.Proofs.TypeScript.Identifier

/-!
# Names that stay as they are

A name is settled if it is an identifier without a capital in front. The
identifier made from a name is settled, and exactly the settled names are kept:
such a name is a single word, camel case finds nothing in it to lower, and it
needs no mark. So an identifier is made once and for all. The name of a
parameter is settled as well and none of those that a body declares, so it does
not change either when it is made again.
-/

namespace TypedClient.TypeScript

/-- An identifier that camel case leaves alone. -/
structure IsSettled (name : List Char) : Prop extends IsIdentifier name where
  small : ∀ c ∈ name.head?, c.isUpper = false

/-! ## Settled names are kept -/

/-- Identifier characters go on with the word that is under way. -/
theorem wordsFrom_of_forall {name : List Char} (h : ∀ c ∈ name, isIdentChar c = true)
    (pending : List Char) : wordsFrom pending name = wordsFrom (name.reverse ++ pending) [] := by
  induction name generalizing pending with
  | nil => rfl
  | cons c name ih =>
    obtain ⟨hc, hname⟩ := List.forall_mem_cons.1 h
    calc
      wordsFrom pending (c :: name) = wordsFrom (c :: pending) name := if_pos hc
      _ = wordsFrom (name.reverse ++ c :: pending) [] := ih hname _
      _ = wordsFrom ((c :: name).reverse ++ pending) [] := by simp

theorem joined_eq_self {name : String} (h : ∀ c ∈ name.toList, isIdentChar c = true) :
    joined name = name.toList := by
  rw [joined, wordsFrom_of_forall h, List.append_nil, wordsFrom]
  split_ifs with hempty
  · exact (List.reverse_eq_nil_iff.1 hempty).symm
  · rw [joinWords, List.flatMap_nil, List.append_nil, List.reverse_reverse]

theorem camelChars_eq_self {name : List Char} (h : ∀ c ∈ name.head?, c.isUpper = false) :
    camelChars name = name := by
  cases name with
  | nil => rfl
  | cons c rest => simp [camelChars, h c rfl]

theorem IsSettled.stem_eq {name : String} (h : IsSettled name.toList) : stem name = name.toList :=
  calc
    stem name = camelChars name.toList := congrArg camelChars (joined_eq_self h.chars)
    _ = name.toList := camelChars_eq_self h.small

/-! ## What is made of a name is settled -/

theorem isSettled_identifier (name : String) : IsSettled (identifier name).toList := by
  have hchars : ∀ c ∈ stem name, isIdentChar c = true := isIdentChar_of_mem_stem
  have hident : (identifier name).toList = identifierChars name.toList := String.toList_ofList
  rw [hident]
  by_cases hnil : stem name = []
  · rw [identifierChars_of_stem_eq_nil hnil]
    exact ⟨isIdentifier_underscore (List.all_eq_true.1 (by decide)), by simp [emptyIdentifier]⟩
  · rw [identifierChars_of_stem_ne_nil hnil]
    split_ifs with hfront
    · exact ⟨isIdentifier_underscore hchars, by simp⟩
    · exact ⟨isIdentifier_of_not_needsFront hnil hchars hfront, head_camelChars⟩

theorem isSettled_localName (name : String) : IsSettled (localName name).toList :=
  ⟨isIdentifier_localName name, head_localName name⟩

/-- Making identifiers keeps the settled names and changes all others. -/
theorem identifier_eq_self_iff {name : String} :
    identifier name = name ↔ IsSettled name.toList := by
  constructor
  · intro h
    rw [← h]
    exact isSettled_identifier name
  · intro h
    have hnil : stem name ≠ [] := h.stem_eq ▸ h.ne_nil
    have hfront : ¬ NeedsFront (stem name) := h.stem_eq ▸ h.not_needsFront
    apply String.toList_inj.1
    calc
      (identifier name).toList = identifierChars name.toList := String.toList_ofList
      _ = stem name := by rw [identifierChars_of_stem_ne_nil hnil, if_neg hfront]
      _ = name.toList := h.stem_eq

theorem localName_eq_self_iff {name : String} :
    localName name = name ↔ IsSettled name.toList ∧ name ∉ methodLocals := by
  constructor
  · intro h
    rw [← h]
    exact ⟨isSettled_localName name, localName_not_mem_methodLocals name⟩
  · intro h
    obtain ⟨hsettled, hlocal⟩ := h
    rw [localName, identifier_eq_self_iff.2 hsettled, if_neg hlocal]

/-- Whatever a name is, the identifier made from it is one that is kept, and so is the name of a
parameter, which moreover is none of the names that a body declares. Nothing else is kept. -/
theorem names_settle (name : String) :
    (IsIdentifier (identifier name).toList ∧ identifier (identifier name) = identifier name) ∧
      (IsIdentifier (localName name).toList ∧ localName name ∉ methodLocals ∧
        localName (localName name) = localName name) ∧
      (identifier name = name ↔ IsSettled name.toList) ∧
      (localName name = name ↔ IsSettled name.toList ∧ name ∉ methodLocals) := by
  have hidentifier := isSettled_identifier name
  have hparameter := isSettled_localName name
  have hlocal := localName_not_mem_methodLocals name
  refine ⟨⟨hidentifier.toIsIdentifier, ?_⟩, ⟨hparameter.toIsIdentifier, hlocal, ?_⟩,
    identifier_eq_self_iff, localName_eq_self_iff⟩
  · exact identifier_eq_self_iff.2 hidentifier
  · exact localName_eq_self_iff.2 ⟨hparameter, hlocal⟩

end TypedClient.TypeScript
