import TypedClient.Proofs.TypeScript.Quotation
import TypedClient.TypeScript.Printer

/-!
# Reading string literals

A string literal is read from its opening quote to the next bare one. A backslash and
the character behind it are an escape, and every other character stands for itself. In
code, the end of a line may not stand bare in a literal. A printed literal ends at its
own closing quote and its escapes are undone, whatever its text is, but code refuses it
if the text has several lines, since the end of a line is not escaped.
-/

namespace TypedClient.TypeScript

namespace StringLiteral

/-- The escapes that stand for a control character. -/
def controlEscapes : List (Char × Char) :=
  [('b', '\x08'), ('t', '\t'), ('n', '\n'), ('v', '\x0b'), ('f', '\x0c'), ('r', '\r')]

/-- The characters that do not stand for themselves behind a backslash. They start an escape by
number or continue the literal on a new line, and neither is read here. -/
def isSpecialEscape (c : Char) : Bool :=
  c.isDigit || c ∈ ['x', 'u', '\n', '\r', '\u2028', '\u2029']

/-- What a backslash and the character behind it stand for. -/
def escapeValue? (c : Char) : Option Char :=
  match controlEscapes.lookup c with
  | some value => some value
  | none => if isSpecialEscape c then none else some c

/-- The text up to the closing quote and what follows it, when only some characters may stand
bare in a literal. -/
def readInside (mayStand : Char → Bool) : List Char → Option (List Char × List Char)
  | [] => none
  | '"' :: after => some ([], after)
  | '\\' :: [] => none
  | '\\' :: c :: rest => do
    let value ← escapeValue? c
    let (text, after) ← readInside mayStand rest
    return (value :: text, after)
  | c :: rest =>
    if mayStand c then do
      let (text, after) ← readInside mayStand rest
      return (c :: text, after)
    else none

/-- Reads a literal: its text, and the code behind it. -/
def read (mayStand : Char → Bool) : List Char → Option (String × List Char)
  | '"' :: inside =>
    (readInside mayStand inside).map fun (text, after) ↦ (String.ofList text, after)
  | _ => none

def isLineEnd (c : Char) : Bool :=
  c = '\n' || c = '\r'

/-- A literal as it may stand in code. -/
def readCode : List Char → Option (String × List Char) :=
  read fun c ↦ !isLineEnd c

/-- A literal that may run over several lines. -/
def readLines : List Char → Option (String × List Char) :=
  read fun _ ↦ true

section

variable {mayStand : Char → Bool}

theorem readInside_escape {c value : Char} (h : escapeValue? c = some value) (rest : List Char) :
    readInside mayStand ('\\' :: c :: rest) =
      (readInside mayStand rest).map fun (text, after) ↦ (value :: text, after) := by
  rw [readInside, h]
  cases readInside mayStand rest <;> rfl

theorem readInside_bare {c : Char} (hslash : c ≠ '\\') (hquote : c ≠ '"') (rest : List Char) :
    readInside mayStand (c :: rest) =
      if mayStand c then
        (readInside mayStand rest).map fun (text, after) ↦ (c :: text, after)
      else none := by
  rw [readInside]
  · cases readInside mayStand rest <;> rfl
  · exact hquote
  · exact fun heq _ ↦ hslash heq
  · exact fun _ _ heq _ ↦ hslash heq

/-- Escaped text is read back, as far as what stands bare in it may do so. -/
theorem readInside_escapeStringChars
    (hescaped : mayStand '\\' = true ∧ mayStand '"' = true) (text after : List Char) :
    readInside mayStand (escapeStringChars text ++ '"' :: after) =
      if text.all mayStand then some (text, after) else none := by
  induction text with
  | nil =>
    rw [escapeStringChars, List.flatMap_nil, List.nil_append, readInside]
    rfl
  | cons c text ih =>
    have hcons : escapeStringChars (c :: text) = escapeChar '"' c ++ escapeStringChars text := rfl
    rw [hcons, List.append_assoc, escapeChar, List.all_cons]
    split
    · rename_i hc
      have hvalue : escapeValue? c = some c := by
        rcases hc with rfl | rfl <;> decide
      have hstand : mayStand c = true := by
        rcases hc with rfl | rfl
        · exact hescaped.1
        · exact hescaped.2
      rw [List.cons_append, List.singleton_append, readInside_escape hvalue, ih, hstand,
        Bool.true_and]
      split <;> rfl
    · rename_i hc
      obtain ⟨hslash, hquote⟩ := not_or.1 hc
      rw [List.singleton_append, readInside_bare hslash hquote, ih]
      cases mayStand c with
      | false => rfl
      | true =>
        rw [if_pos rfl, Bool.true_and]
        split <;> rfl

theorem read_stringLiteral (hescaped : mayStand '\\' = true ∧ mayStand '"' = true)
    (text : String) (after : List Char) :
    read mayStand ((stringLiteral text).toList ++ after) =
      if text.toList.all mayStand then some (text, after) else none := by
  have hliteral : (stringLiteral text).toList ++ after =
      '"' :: (escapeStringChars text.toList ++ '"' :: after) := by
    simp [toList_stringLiteral]
  rw [hliteral, read, readInside_escapeStringChars hescaped]
  split
  · simp
  · rfl

theorem readLines_stringLiteral (text : String) (after : List Char) :
    readLines ((stringLiteral text).toList ++ after) = some (text, after) := by
  rw [readLines, read_stringLiteral ⟨rfl, rfl⟩, if_pos]
  simp

end

/-- A printed literal ends at its own closing quote, and undoing its escapes gives back its text.
Code reads it exactly if no line ends in the text. A key is written as a literal unless it is an
identifier. -/
theorem literal_denotes (text : String) (after : List Char) :
    readLines ((Literal.string text).print.toList ++ after) = some (text, after) ∧
      readCode ((Literal.string text).print.toList ++ after) =
        (if text.toList.any isLineEnd then none else some (text, after)) ∧
      propertyKey text = if needsQuoting text then (Literal.string text).print else text := by
  refine ⟨readLines_stringLiteral text after, ?_, rfl⟩
  have hall : text.toList.all (fun c ↦ !isLineEnd c) = !text.toList.any isLineEnd :=
    List.not_any_eq_all_not.symm
  rw [readCode, Literal.print, read_stringLiteral (by decide), hall]
  cases text.toList.any isLineEnd <;> rfl

/-- A text of two lines is written as a literal that does not end on its line. -/
theorem not_forall_readCode_literal : ¬ ∀ text after,
    readCode ((Literal.string text).print.toList ++ after) = some (text, after) := by
  intro h
  have hread := h "a\nb" []
  have hrefused : readCode ((Literal.string "a\nb").print.toList ++ []) = none := by decide
  rw [hrefused] at hread
  contradiction

end StringLiteral

end TypedClient.TypeScript
