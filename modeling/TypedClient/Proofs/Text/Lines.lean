import Mathlib.Data.List.DropRight
import TypedClient.Text.Blank
import TypedClient.Text.Lines

/-!
# Lines and blanks around them

Lines that end in line feeds are found again where the text is split at its line
feeds. Blanks at either end make no difference to a trimmed text, so neither
does the carriage return in front of a line feed.
-/

namespace TypedClient.Text

/-! ## Blanks -/

theorem trimChars_blank_append {blanks : List Char} (h : ∀ c ∈ blanks, isBlank c = true)
    (text : List Char) : trimChars (blanks ++ text) = trimChars text := by
  rw [trimChars, trimStartChars, List.dropWhile_append_of_pos h]
  rfl

theorem trimEndChars_append_blank {blanks : List Char} (h : ∀ c ∈ blanks, isBlank c = true)
    (text : List Char) : trimEndChars (text ++ blanks) = trimEndChars text := by
  rw [trimEndChars, List.reverse_append, List.dropWhile_append_of_pos (by simpa using h)]
  rfl

theorem trimChars_append_blank {blanks : List Char} (h : ∀ c ∈ blanks, isBlank c = true)
    (text : List Char) : trimChars (text ++ blanks) = trimChars text := by
  rw [trimChars, trimChars, trimStartChars, trimStartChars, List.dropWhile_append]
  split
  · rename_i hempty
    have hblanks : blanks.dropWhile isBlank = [] := List.dropWhile_eq_nil_iff.2 h
    rw [hblanks, List.isEmpty_iff.1 hempty]
  · exact trimEndChars_append_blank h _

theorem prefix_trimEndChars (text : List Char) : trimEndChars text <+: text :=
  List.rdropWhile_prefix isBlank text

theorem isBlank_head_trimChars (text : List Char) :
    ∀ c ∈ (trimChars text).head?, isBlank c = false := by
  intro c hc
  obtain ⟨rest, hrest⟩ := List.head?_eq_some_iff.1 hc
  obtain ⟨blanks, hblanks⟩ := prefix_trimEndChars (trimStartChars text)
  have hhead := List.head?_dropWhile_not isBlank text
  have hstart : text.dropWhile isBlank = c :: (rest ++ blanks) := by
    rw [trimChars] at hrest
    rw [← List.cons_append, ← hrest, hblanks]
    rfl
  rw [hstart] at hhead
  exact hhead

theorem isBlank_getLast_trimChars (text : List Char) :
    ∀ c ∈ (trimChars text).getLast?, isBlank c = false := by
  intro c hc
  have hhead := List.head?_dropWhile_not isBlank (trimStartChars text).reverse
  rw [trimChars, trimEndChars, List.getLast?_reverse] at hc
  rw [hc] at hhead
  exact hhead

theorem mem_of_mem_trimChars {text : List Char} {c : Char} (h : c ∈ trimChars text) : c ∈ text :=
  (List.dropWhile_suffix isBlank).subset ((prefix_trimEndChars _).subset h)

/-! ## Lines -/

theorem splitLines_of_not_mem {text : List Char} (h : '\n' ∉ text) : splitLines text = [text] := by
  induction text with
  | nil => rfl
  | cons c text ih =>
    rw [List.mem_cons, not_or] at h
    rw [splitLines, if_neg (Ne.symm h.1), ih h.2]

theorem splitLines_ne_nil (text : List Char) : splitLines text ≠ [] := by
  cases text with
  | nil => exact List.cons_ne_nil _ _
  | cons c text =>
    rw [splitLines]
    split
    · exact List.cons_ne_nil _ _
    · split <;> exact List.cons_ne_nil _ _

theorem splitLines_append (text rest : List Char) :
    splitLines (text ++ '\n' :: rest) = splitLines text ++ splitLines rest := by
  induction text with
  | nil => rfl
  | cons c text ih =>
    rw [List.cons_append, splitLines, splitLines, ih]
    split
    · rfl
    · cases hsplit : splitLines text with
      | nil => exact absurd hsplit (splitLines_ne_nil text)
      | cons line lines => rfl

theorem not_mem_of_mem_splitLines {text line : List Char} (h : line ∈ splitLines text) :
    '\n' ∉ line := by
  induction text generalizing line with
  | nil => simp [List.mem_singleton.1 h]
  | cons c text ih =>
    rw [splitLines] at h
    split at h
    · rcases List.mem_cons.1 h with rfl | h
      · exact List.not_mem_nil
      · exact ih h
    · rename_i hc
      split at h
      · simp [List.mem_singleton.1 h, Ne.symm hc]
      · rename_i first lines hsplit
        rcases List.mem_cons.1 h with rfl | h
        · simp [Ne.symm hc, ih (hsplit ▸ List.mem_cons_self)]
        · exact ih (hsplit ▸ List.mem_cons_of_mem _ h)

/-- Lines that end in line feeds, and what follows the last of them. -/
theorem splitLines_flatMap {lines : List (List Char)} {last : List Char}
    (hlines : ∀ line ∈ lines, '\n' ∉ line) (hlast : '\n' ∉ last) :
    splitLines (lines.flatMap (· ++ ['\n']) ++ last) = lines ++ [last] := by
  induction lines with
  | nil => exact splitLines_of_not_mem hlast
  | cons line lines ih =>
    obtain ⟨hline, hlines⟩ := List.forall_mem_cons.1 hlines
    rw [List.flatMap_cons, List.append_assoc, List.append_assoc, List.singleton_append,
      splitLines_append, splitLines_of_not_mem hline, ih hlines]
    rfl

theorem endLines_append (front : List (List Char)) {rest : List (List Char)} (h : rest ≠ []) :
    endLines (front ++ rest) = front.map dropCarriageReturn ++ endLines rest := by
  induction front with
  | nil => rfl
  | cons line front ih =>
    rw [List.cons_append, endLines, ih]
    · rfl
    · simp [h]

theorem linesChars_append (text rest : List Char) :
    linesChars (text ++ '\n' :: rest) =
      (splitLines text).map dropCarriageReturn ++ linesChars rest := by
  rw [linesChars, splitLines_append, endLines_append _ (splitLines_ne_nil rest)]
  rfl

theorem dropCarriageReturn_subset (line : List Char) : dropCarriageReturn line ⊆ line := by
  unfold dropCarriageReturn
  split
  · exact List.dropLast_subset line
  · exact List.Subset.refl line

theorem exists_subset_of_mem_endLines {pieces : List (List Char)} {line : List Char}
    (h : line ∈ endLines pieces) : ∃ piece ∈ pieces, line ⊆ piece := by
  induction pieces with
  | nil => contradiction
  | cons piece pieces ih =>
    cases pieces with
    | nil =>
      rw [endLines] at h
      split at h
      · contradiction
      · exact ⟨line, h, List.Subset.refl line⟩
    | cons next pieces =>
      rw [endLines] at h
      · rcases List.mem_cons.1 h with rfl | h
        · exact ⟨piece, List.mem_cons_self, dropCarriageReturn_subset piece⟩
        · obtain ⟨other, hother, hsubset⟩ := ih h
          exact ⟨other, List.mem_cons_of_mem _ hother, hsubset⟩
      · exact List.cons_ne_nil _ _

theorem not_mem_of_mem_linesChars {text line : List Char} (h : line ∈ linesChars text) :
    '\n' ∉ line := by
  obtain ⟨piece, hpiece, hsubset⟩ := exists_subset_of_mem_endLines h
  exact fun hmem ↦ not_mem_of_mem_splitLines hpiece (hsubset hmem)

theorem trimChars_dropCarriageReturn (line : List Char) :
    trimChars (dropCarriageReturn line) = trimChars line := by
  unfold dropCarriageReturn
  split
  · rename_i hlast
    obtain ⟨front, rfl⟩ := List.getLast?_eq_some_iff.1 hlast
    rw [List.dropLast_concat, trimChars_append_blank (List.forall_mem_singleton.2 rfl)]
  · rfl

/-- A line feed at the end of a text leaves an empty piece that is no line. -/
theorem map_trimChars_splitLines (text : List Char) :
    ∃ rest, (rest = [] ∨ rest = [[]]) ∧
      (splitLines text).map trimChars = (linesChars text).map trimChars ++ rest := by
  obtain ⟨front, last, hsplit⟩ : ∃ front last, splitLines text = front ++ [last] :=
    ⟨_, _, (List.dropLast_append_getLast (splitLines_ne_nil text)).symm⟩
  have htrim : trimChars ∘ dropCarriageReturn = trimChars :=
    funext trimChars_dropCarriageReturn
  rw [linesChars, hsplit, endLines_append _ (List.cons_ne_nil _ _), List.map_append,
    List.map_append, List.map_map, htrim, endLines]
  split
  · rename_i hempty
    exact ⟨[[]], .inr rfl, by rw [hempty]; simp [trimChars, trimStartChars, trimEndChars]⟩
  · exact ⟨[], .inl rfl, by simp⟩

end TypedClient.Text
