/-!
# Replacing one text by another

Occurrences are found from left to right and do not overlap. An empty pattern
occurs nowhere.
-/

namespace TypedClient.Text

/-- What follows `lead` in `text`, if `text` starts with it. -/
def dropLead? : List Char → List Char → Option (List Char)
  | [], text => some text
  | _ :: _, [] => none
  | p :: lead, c :: text => if p = c then dropLead? lead text else none

/-- Copies `text` with every occurrence of `pattern` replaced; the first `skip` characters
belong to an occurrence that has been replaced already. -/
def replaceFrom (pattern replacement : List Char) : Nat → List Char → List Char
  | _, [] => []
  | skip + 1, _ :: text => replaceFrom pattern replacement skip text
  | 0, c :: text =>
    if pattern ≠ [] ∧ pattern.isPrefixOf (c :: text) then
      replacement ++ replaceFrom pattern replacement (pattern.length - 1) text
    else c :: replaceFrom pattern replacement 0 text

def replaceChars (pattern replacement text : List Char) : List Char :=
  replaceFrom pattern replacement 0 text

def replace (pattern replacement text : String) : String :=
  String.ofList (replaceChars pattern.toList replacement.toList text.toList)

@[simp]
theorem dropLead?_append (lead text : List Char) : dropLead? lead (lead ++ text) = some text := by
  induction lead with
  | nil => rfl
  | cons c lead ih => simp [dropLead?, ih]

theorem replaceChars_eq_self {pattern replacement text : List Char}
    (h : ¬ pattern <:+: text) : replaceChars pattern replacement text = text := by
  unfold replaceChars
  induction text with
  | nil => rfl
  | cons c text ih =>
    have hhead : ¬ pattern.isPrefixOf (c :: text) = true := fun hp =>
      h (List.isPrefixOf_iff_prefix.1 hp).isInfix
    have htail : ¬ pattern <:+: text := fun ht => h (List.infix_cons ht)
    simp [replaceFrom, hhead, ih htail]

end TypedClient.Text
