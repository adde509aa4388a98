import TypedClient.TypeScript.Quotation

/-!
# Quotation in one pass

Text is quoted by one replacement after the other. The result is what a single
pass over the text makes of it, which looks at a character and, behind a dollar
sign, at the next one.
-/

namespace TypedClient

/-- A pattern of one character is replaced wherever the character stands. -/
theorem Text.replaceChars_singleton (pattern : Char) (replacement text : List Char) :
    replaceChars [pattern] replacement text =
      text.flatMap fun c ↦ if c = pattern then replacement else [c] := by
  unfold replaceChars
  induction text with
  | nil => rfl
  | cons c text ih =>
    rw [replaceFrom, List.flatMap_cons]
    by_cases hc : c = pattern
    · simpa [hc] using ih
    · simpa [hc, Ne.symm hc] using ih

namespace TypeScript

/-- Backslashes are escaped, and so is the mark. -/
def escapeChar (mark c : Char) : List Char :=
  if c = '\\' ∨ c = mark then ['\\', c] else [c]

/-- The second replacement does not meet what the first one puts in. -/
theorem replaceChars_mark {mark : Char} (hmark : mark ≠ '\\') (text : List Char) :
    Text.replaceChars [mark] ['\\', mark] (Text.replaceChars ['\\'] ['\\', '\\'] text) =
      text.flatMap (escapeChar mark) := by
  rw [Text.replaceChars_singleton, Text.replaceChars_singleton, List.flatMap_assoc]
  congr 1
  funext c
  unfold escapeChar
  by_cases hbackslash : c = '\\'
  · simp [hbackslash, hmark.symm]
  · by_cases hc : c = mark
    · simp [hc, hmark]
    · simp [hbackslash, hc]

theorem toList_replace_backslash (text : String) : (Text.replace "\\" "\\\\" text).toList =
    Text.replaceChars ['\\'] ['\\', '\\'] text.toList := by
  have hbackslash : "\\".toList = ['\\'] := rfl
  have hdoubled : "\\\\".toList = ['\\', '\\'] := rfl
  rw [Text.replace, String.toList_ofList, hbackslash, hdoubled]

/-! ## Between double quotes -/

def escapeStringChars (text : List Char) : List Char :=
  text.flatMap (escapeChar '"')

theorem escapeString_eq (text : String) :
    escapeString text = String.ofList (escapeStringChars text.toList) := by
  have hquote : "\"".toList = ['"'] := rfl
  have hescaped : "\\\"".toList = ['\\', '"'] := rfl
  rw [escapeString, Text.replace, toList_replace_backslash, hquote, hescaped,
    replaceChars_mark (by decide), escapeStringChars]

theorem toList_stringLiteral (text : String) :
    (stringLiteral text).toList = '"' :: (escapeStringChars text.toList ++ ['"']) := by
  simp [stringLiteral, escapeString_eq]

/-! ## Inside a template literal -/

def escapeTemplateChars : List Char → List Char
  | [] => []
  | c :: rest =>
    if c = '\\' ∨ c = '\x60' ∨ (c = '$' ∧ rest.head? = some '{') then
      '\\' :: c :: escapeTemplateChars rest
    else c :: escapeTemplateChars rest

theorem head?_flatMap_escapeChar {mark : Char} (hmark : mark ≠ '{') (text : List Char) :
    (text.flatMap (escapeChar mark)).head? = some '{' ↔ text.head? = some '{' := by
  cases text with
  | nil => rfl
  | cons c text =>
    rw [List.flatMap_cons, escapeChar]
    split
    · rename_i hc
      rcases hc with rfl | rfl <;> simp [hmark]
    · simp

/-- The last replacement meets the openings that the text itself has. -/
theorem replaceChars_opening (text : List Char) :
    Text.replaceChars ['$', '{'] ['\\', '$', '{'] (text.flatMap (escapeChar '\x60')) =
      escapeTemplateChars text := by
  have hhead (text : List Char) : (text.flatMap (escapeChar '\x60')).head? = some '{' ↔
      text.head? = some '{' := head?_flatMap_escapeChar (by decide) text
  unfold Text.replaceChars
  induction text with
  | nil => rfl
  | cons c text ih =>
    rw [List.flatMap_cons, escapeTemplateChars]
    by_cases hescaped : c = '\\' ∨ c = '\x60'
    · have hc : '$' ≠ c := by rcases hescaped with rfl | rfl <;> decide
      rw [if_pos (hescaped.imp_right .inl), escapeChar, if_pos hescaped, ← ih]
      simp [Text.replaceFrom, hc]
    · rw [escapeChar, if_neg hescaped, List.singleton_append]
      by_cases hopen : c = '$' ∧ text.head? = some '{'
      · rw [if_pos (.inr (.inr hopen)), ← ih]
        obtain ⟨rfl, hopens⟩ := hopen
        obtain ⟨rest, hrest⟩ := List.head?_eq_some_iff.1 ((hhead text).2 hopens)
        simp [hrest, Text.replaceFrom]
      · have hprefix : ¬ ['$', '{'].isPrefixOf (c :: text.flatMap (escapeChar '\x60')) = true := by
          intro hprefix
          obtain ⟨rest, hrest⟩ := List.isPrefixOf_iff_prefix.1 hprefix
          obtain ⟨rfl, htail⟩ := List.cons.inj hrest
          refine hopen ⟨rfl, (hhead text).1 ?_⟩
          rw [← htail]
          rfl
        have hkept : ¬ (c = '\\' ∨ c = '\x60' ∨ c = '$' ∧ text.head? = some '{') := by
          rw [← or_assoc]
          exact not_or.2 ⟨hescaped, hopen⟩
        rw [if_neg hkept, ← ih]
        simp [Text.replaceFrom, hprefix]

theorem escapeTemplate_eq (text : String) :
    escapeTemplate text = String.ofList (escapeTemplateChars text.toList) := by
  have hbacktick : "\x60".toList = ['\x60'] := rfl
  have hescaped : "\\\x60".toList = ['\\', '\x60'] := rfl
  have hopening : "$\x7b".toList = ['$', '{'] := rfl
  have hbroken : "\\$\x7b".toList = ['\\', '$', '{'] := rfl
  rw [escapeTemplate, Text.replace, Text.replace, toList_replace_backslash, hbacktick, hescaped,
    hopening, hbroken, replaceChars_mark (by decide), String.toList_ofList, replaceChars_opening]

end TypeScript

end TypedClient
