import Mathlib.Data.List.Chain
import TypedClient.Proofs.Text.Lines
import TypedClient.Rendering.Methods

/-!
# Documentation comments

A documentation text becomes one block comment. Whatever the text says, the mark
that ends a comment occurs in it once, as its end. Read without its marks and
stars the comment gives the lines of the text in order, each of them trimmed and
with a backslash in every end mark. The comment of a method goes on with its
verb and its route, and empty lines keep them apart from the documentation.
-/

namespace TypedClient

namespace TypeScript

/-! ## Ends of comments -/

/-- No comment ends inside the text. -/
def EndFree (text : List Char) : Prop :=
  text.IsChain fun left right ↦ left = '*' → right ≠ '/'

instance (text : List Char) : Decidable (EndFree text) :=
  inferInstanceAs (Decidable (text.IsChain fun left right ↦ left = '*' → right ≠ '/'))

/-- No comment ends inside the text or at its border to any other text. -/
structure Inert (text : List Char) : Prop where
  endFree : EndFree text
  getLast?_ne : text.getLast? ≠ some '*'

theorem EndFree.ne_append {text : List Char} (h : EndFree text) (before after : List Char) :
    text ≠ before ++ ['*', '/'] ++ after := by
  rintro rfl
  rw [List.append_assoc] at h
  obtain ⟨-, h, -⟩ := List.isChain_append.1 h
  exact (List.isChain_cons_cons.1 h).1 rfl rfl

namespace Inert

variable {text rest : List Char}

theorem of_not_mem (h : '*' ∉ text) : Inert text where
  endFree := by
    refine List.isChain_iff_getElem.2 fun i hi heq ↦ ?_
    exact absurd (heq ▸ List.getElem_mem _) h
  getLast?_ne hlast := h (List.mem_of_getLast? hlast)

theorem endFree_append (h : Inert text) (hrest : EndFree rest) : EndFree (text ++ rest) :=
  List.isChain_append.2 ⟨h.endFree, hrest, fun _ hc _ _ heq ↦ absurd (heq ▸ hc) h.getLast?_ne⟩

theorem append (h : Inert text) (hrest : Inert rest) : Inert (text ++ rest) where
  endFree := h.endFree_append hrest.endFree
  getLast?_ne hlast := by
    rw [List.getLast?_append, Option.or_eq_some_iff] at hlast
    rcases hlast with hlast | ⟨-, hlast⟩
    · exact hrest.getLast?_ne hlast
    · exact h.getLast?_ne hlast

theorem of_concat {c : Char} (h : EndFree text) (hstar : c ≠ '*') (hslash : c ≠ '/') :
    Inert (text ++ [c]) where
  endFree := by
    refine List.isChain_append.2 ⟨h, List.isChain_singleton c, fun _ _ d hd _ ↦ ?_⟩
    rwa [← Option.some.inj hd]
  getLast?_ne hlast := by
    rw [List.getLast?_concat] at hlast
    exact hstar (Option.some.inj hlast)

theorem flatMap {lines : List (List Char)} {write : List Char → List Char}
    (h : ∀ line ∈ lines, Inert (write line)) : Inert (lines.flatMap write) := by
  induction lines with
  | nil => exact of_not_mem List.not_mem_nil
  | cons line lines ih =>
    obtain ⟨hline, hlines⟩ := List.forall_mem_cons.1 h
    exact hline.append (ih hlines)

end Inert

/-- The text with a backslash in every end mark. -/
def breakEnds : List Char → List Char
  | '*' :: '/' :: text => '*' :: '\\' :: '/' :: breakEnds text
  | c :: text => c :: breakEnds text
  | [] => []

theorem replaceChars_eq_breakEnds (text : List Char) :
    Text.replaceChars ['*', '/'] ['*', '\\', '/'] text = breakEnds text := by
  unfold Text.replaceChars
  fun_induction breakEnds text with
  | case1 text ih => simp [Text.replaceFrom, ih]
  | case2 c text hnot ih =>
    have hprefix : ¬ ['*', '/'].isPrefixOf (c :: text) = true := by
      intro hprefix
      obtain ⟨rest, hrest⟩ := List.isPrefixOf_iff_prefix.1 hprefix
      obtain ⟨rfl, rfl⟩ := List.cons.inj hrest
      exact hnot rest rfl rfl
    simp [Text.replaceFrom, hprefix, ih]
  | case3 => rfl

theorem breakCommentEnd_eq (text : String) :
    breakCommentEnd text = String.ofList (breakEnds text.toList) := by
  have hmark : "*/".toList = ['*', '/'] := rfl
  have hbroken : "*\\/".toList = ['*', '\\', '/'] := rfl
  rw [breakCommentEnd, Text.replace, hmark, hbroken, replaceChars_eq_breakEnds]

@[simp]
theorem head?_breakEnds (text : List Char) : (breakEnds text).head? = text.head? := by
  fun_cases breakEnds text <;> rfl

@[simp]
theorem getLast?_breakEnds (text : List Char) : (breakEnds text).getLast? = text.getLast? := by
  fun_induction breakEnds text with
  | case1 text ih => simp [List.getLast?_cons, ih]
  | case2 c text _ ih => simp [List.getLast?_cons, ih]
  | case3 => rfl

theorem mem_of_mem_breakEnds {text : List Char} {c : Char} (hc : c ≠ '\\')
    (h : c ∈ breakEnds text) : c ∈ text := by
  fun_induction breakEnds text with
  | case1 text ih =>
    simp only [List.mem_cons, hc, false_or] at h ⊢
    exact h.imp_right (.imp_right ih)
  | case2 d text _ ih =>
    rw [List.mem_cons] at h ⊢
    exact h.imp_right ih
  | case3 => exact h

theorem endFree_breakEnds (text : List Char) : EndFree (breakEnds text) := by
  fun_induction breakEnds text with
  | case1 text ih =>
    refine List.isChain_cons_cons.2 ⟨by decide, List.isChain_cons_cons.2 ⟨by decide, ?_⟩⟩
    exact List.isChain_cons.2 ⟨fun _ _ h ↦ absurd h (by decide), ih⟩
  | case2 c text hnot ih =>
    refine List.isChain_cons.2 ⟨?_, ih⟩
    rintro d hd rfl rfl
    rw [head?_breakEnds] at hd
    obtain ⟨rest, rfl⟩ := List.head?_eq_some_iff.1 hd
    exact hnot rest rfl rfl
  | case3 => exact List.isChain_nil

/-! ## Comments -/

/-- A block comment on lines of its own, which ends nowhere but at its end. -/
structure IsBlockComment (indent inside text : List Char) : Prop where
  text_eq : text = indent ++ "/**".toList ++ inside ++ "*/\n".toList
  ends_once : ∀ before after, text = before ++ ['*', '/'] ++ after → after = ['\n']

/-- Only the last line feed can stand behind an end mark, if the front ends with a star. -/
theorem EndFree.eq_of_append {front before after : List Char} (h : EndFree front)
    (heq : front ++ ['/', '\n'] = before ++ ['*', '/'] ++ after) : after = ['\n'] := by
  rcases List.eq_nil_or_concat after with rfl | ⟨middle, last, rfl⟩
  · have hlast := congrArg List.getLast? heq
    simp at hlast
  · rcases List.eq_nil_or_concat middle with rfl | ⟨start, previous, rfl⟩
    · have hlast := congrArg List.getLast? heq
      simpa [eq_comm] using hlast
    · have hsplit : front ++ ['/', '\n'] =
          (before ++ ['*', '/'] ++ start) ++ [previous, last] := by
        simpa using heq
      obtain ⟨hfront, -⟩ := List.append_inj' hsplit rfl
      exact absurd hfront (h.ne_append before start)

theorem isBlockComment_of_inert {indent inside : List Char} (hindent : Inert indent)
    (hinside : Inert ("/**".toList ++ inside)) :
    IsBlockComment indent inside (indent ++ "/**".toList ++ inside ++ "*/\n".toList) where
  text_eq := rfl
  ends_once before after h := by
    have hfront : EndFree (indent ++ ("/**".toList ++ inside) ++ ['*']) :=
      (hindent.append hinside).endFree_append (List.isChain_singleton _)
    apply hfront.eq_of_append
    simpa using h

/-- The lines of a documentation text as a comment says them. -/
def commentLines (doc : String) : List (List Char) :=
  (Text.linesChars doc.toList).map fun line ↦ breakEnds (Text.trimChars line)

/-- A line of a comment that has several, without the line feed. -/
def starText (indent line : List Char) : List Char :=
  indent ++ " *".toList ++ if line = [] then [] else ' ' :: line

def starLine (indent line : List Char) : List Char :=
  starText indent line ++ ['\n']

/-- What a comment says between its marks. -/
def commentInside (indent : List Char) : List (List Char) → List Char
  | [single] => ' ' :: single ++ [' ']
  | lines => '\n' :: lines.flatMap (starLine indent) ++ indent ++ [' ']

theorem toList_docLine (indent : String) (line : List Char) :
    (docLine indent (String.ofList line)).toList = starLine indent.toList line := by
  unfold docLine starLine starText TypeScript.line
  by_cases hline : line = []
  · simp [hline]
  · simp [hline]

theorem map_breakCommentEnd_lines (doc : String) :
    ((Text.lines doc).map Text.trim).map breakCommentEnd =
      (commentLines doc).map String.ofList := by
  have hbreak : (breakCommentEnd ∘ Text.trim) ∘ String.ofList =
      String.ofList ∘ fun line ↦ breakEnds (Text.trimChars line) := by
    funext line
    simp only [Function.comp_apply, Text.trim, breakCommentEnd_eq, String.toList_ofList]
  rw [Text.lines, commentLines, List.map_map, List.map_map, List.map_map, hbreak]

theorem toList_docComment (indent doc : String) :
    (docComment indent (some doc)).toList = indent.toList ++ "/**".toList ++
      commentInside indent.toList (commentLines doc) ++ "*/\n".toList := by
  rw [docComment, map_breakCommentEnd_lines]
  match commentLines doc with
  | [] => simp [commentInside, TypeScript.line]
  | [single] => simp [commentInside, TypeScript.line]
  | first :: second :: rest =>
    have hlines (lines : List (List Char)) :
        (String.join ((lines.map String.ofList).map (docLine indent))).toList =
          lines.flatMap (starLine indent.toList) := by
      simp [String.toList_join, List.flatMap_map, toList_docLine]
    simp [commentInside, TypeScript.line, ← hlines]

theorem endFree_starText {indent line : List Char} (hindent : Inert indent)
    (hline : EndFree line) : EndFree (starText indent line) := by
  have hstar : EndFree (" *".toList ++ if line = [] then [] else ' ' :: line) := by
    split
    · decide
    · have hblank : Inert " * ".toList := ⟨by decide, by decide⟩
      exact hblank.endFree_append hline
  rw [starText, List.append_assoc]
  exact hindent.endFree_append hstar

theorem inert_commentInside {indent : List Char} {lines : List (List Char)}
    (hindent : Inert indent) (hlines : ∀ line ∈ lines, EndFree line) :
    Inert ("/**".toList ++ commentInside indent lines) := by
  unfold commentInside
  split
  · rename_i single
    have hopen : Inert "/** ".toList := ⟨by decide, by decide⟩
    have hsingle : EndFree single := hlines single List.mem_cons_self
    exact hopen.append (.of_concat hsingle (by decide) (by decide))
  · have hopen : Inert "/**\n".toList := ⟨by decide, by decide⟩
    have hstars : Inert (lines.flatMap (starLine indent)) :=
      .flatMap fun line hline ↦
        .of_concat (endFree_starText hindent (hlines line hline)) (by decide) (by decide)
    exact hopen.append (.of_concat (hstars.append hindent).endFree (by decide) (by decide))

/-! ## Reading a comment -/

def afterStar : List Char → List Char
  | '*' :: text => text
  | text => text

/-- The lines between the marks of a comment. A single line is all of it; of several the first and
the last belong to the marks, and the others start with a star. -/
def readInside (inside : List Char) : List (List Char) :=
  match Text.splitLines inside with
  | [single] => [Text.trimChars single]
  | lines => lines.tail.dropLast.map fun line ↦
      Text.trimChars (afterStar (Text.trimStartChars line))

/-- A line without blanks at its ends, which stays one line. -/
structure IsTrimmedLine (line : List Char) : Prop where
  not_mem : '\n' ∉ line
  trimChars_eq : Text.trimChars line = line

theorem isTrimmedLine_of_mem_commentLines {doc : String} {line : List Char}
    (h : line ∈ commentLines doc) : IsTrimmedLine line := by
  obtain ⟨piece, hpiece, rfl⟩ := List.mem_map.1 h
  constructor
  · intro hmem
    have hpieceMem := Text.mem_of_mem_trimChars (mem_of_mem_breakEnds (by decide) hmem)
    exact Text.not_mem_of_mem_linesChars hpiece hpieceMem
  · apply Text.trimChars_eq_self
    · rw [head?_breakEnds]
      exact Text.isBlank_head_trimChars piece
    · rw [getLast?_breakEnds]
      exact Text.isBlank_getLast_trimChars piece

theorem not_mem_starText {indent line : List Char} (hindent : ∀ c ∈ indent, c = ' ')
    (hline : IsTrimmedLine line) : '\n' ∉ starText indent line := by
  have hblanks : '\n' ∉ indent := fun hmem ↦ absurd (hindent _ hmem) (by decide)
  unfold starText
  split
  · simp [hblanks]
  · simp [hblanks, hline.not_mem]

theorem trimChars_starText {indent line : List Char} (hindent : ∀ c ∈ indent, c = ' ')
    (hline : IsTrimmedLine line) :
    Text.trimChars (afterStar (Text.trimStartChars (starText indent line))) = line := by
  have hblanks : ∀ c ∈ indent, Text.isBlank c = true := fun c hc ↦ hindent c hc ▸ rfl
  have hstart (rest : List Char) :
      Text.trimStartChars (indent ++ " *".toList ++ rest) = '*' :: rest := by
    rw [Text.trimStartChars, List.append_assoc, List.dropWhile_append_of_pos hblanks]
    rfl
  rw [starText, hstart, afterStar]
  split
  · rename_i hempty
    subst hempty
    rfl
  · have hblank : ∀ c ∈ [' '], Text.isBlank c = true := List.forall_mem_singleton.2 rfl
    exact (Text.trimChars_blank_append hblank line).trans hline.trimChars_eq

/-- A comment is read back as the lines that it was made of. -/
theorem readInside_commentInside {indent : List Char} {lines : List (List Char)}
    (hindent : ∀ c ∈ indent, c = ' ') (hlines : ∀ line ∈ lines, IsTrimmedLine line) :
    readInside (commentInside indent lines) = lines := by
  unfold commentInside
  split
  · rename_i single
    have hsingle := hlines single List.mem_cons_self
    have hsplit : Text.splitLines (' ' :: single ++ [' ']) = [' ' :: single ++ [' ']] :=
      Text.splitLines_of_not_mem (by simp [hsingle.not_mem])
    have hblank : ∀ c ∈ [' '], Text.isBlank c = true := List.forall_mem_singleton.2 rfl
    have htrim : Text.trimChars (' ' :: single ++ [' ']) = single := by
      rw [Text.trimChars_append_blank hblank]
      exact (Text.trimChars_blank_append hblank single).trans hsingle.trimChars_eq
    rw [readInside, hsplit]
    simp only [htrim]
  · have hpieces : '\n' :: lines.flatMap (starLine indent) ++ indent ++ [' '] =
        ([] :: lines.map (starText indent)).flatMap (· ++ ['\n']) ++ (indent ++ [' ']) := by
      have hstar : starLine indent = fun line ↦ starText indent line ++ ['\n'] := rfl
      simp [List.flatMap_map, hstar]
    have hstars : ∀ piece ∈ [] :: lines.map (starText indent), '\n' ∉ piece := by
      rw [List.forall_mem_cons, List.forall_mem_map]
      exact ⟨List.not_mem_nil, fun line hline ↦ not_mem_starText hindent (hlines line hline)⟩
    have hlast : '\n' ∉ indent ++ [' '] := by
      simpa using fun hmem ↦ absurd (hindent _ hmem) (by decide)
    rw [readInside, hpieces, Text.splitLines_flatMap hstars hlast]
    have hread : (lines.map (starText indent)).map (fun piece ↦
        Text.trimChars (afterStar (Text.trimStartChars piece))) = lines := by
      rw [List.map_map]
      conv_rhs => rw [← List.map_id lines]
      exact List.map_congr_left fun line hline ↦ trimChars_starText hindent (hlines line hline)
    simpa using hread

/-- Every documentation text becomes one block comment, which gives back its lines. -/
theorem docComment_reads (level : Nat) (doc : String) :
    ∃ inside, IsBlockComment (indentation level).toList inside
        (docComment (indentation level) (some doc)).toList ∧
      readInside inside = commentLines doc := by
  have hindent : ∀ c ∈ (indentation level).toList, c = ' ' := by
    intro c hc
    rw [indentation, String.toList_ofList] at hc
    exact List.eq_of_mem_replicate hc
  have hinert : Inert (indentation level).toList :=
    .of_not_mem fun hmem ↦ absurd (hindent _ hmem) (by decide)
  have hlines : ∀ line ∈ commentLines doc, EndFree line := by
    intro line hline
    obtain ⟨piece, -, rfl⟩ := List.mem_map.1 hline
    exact endFree_breakEnds _
  refine ⟨commentInside (indentation level).toList (commentLines doc), ?_, ?_⟩
  · rw [toList_docComment]
    exact isBlockComment_of_inert hinert (inert_commentInside hinert hlines)
  · exact readInside_commentInside hindent fun _ hline ↦ isTrimmedLine_of_mem_commentLines hline

example : docComment "  " (some "Ends here: */\n\n/ twice: **//") =
    "  /**\n   * Ends here: *\\/\n   *\n   * / twice: **\\//\n   */\n" := by decide

end TypeScript

/-! ## Methods -/

namespace Callable

open TypeScript

/-- The lines of the documentation, and below them, apart, those of the verb and the route. -/
inductive Documents (function : Callable) : List (List Char) → Prop
  | route (hdoc : function.doc = none) : Documents function (commentLines function.routeText)
  | documented {doc : String} {gap : List (List Char)} (hdoc : function.doc = some doc)
      (hgap : gap ≠ []) (hempty : ∀ line ∈ gap, line = []) :
      Documents function (commentLines doc ++ gap ++ commentLines function.routeText)

theorem documents_docText (function : Callable) :
    function.Documents (commentLines function.docText) := by
  unfold docText
  cases hdoc : function.doc with
  | none => exact .route hdoc
  | some doc =>
    have htext : (doc ++ "\n\n" ++ function.routeText).toList =
        doc.toList ++ '\n' :: ([] ++ '\n' :: function.routeText.toList) := by
      simp
    have htrim : Text.trimChars ∘ Text.dropCarriageReturn = Text.trimChars :=
      funext Text.trimChars_dropCarriageReturn
    -- Behind the documentation a line feed follows, so its last piece is a line even if empty.
    obtain ⟨rest, hrest, hsplit⟩ := Text.map_trimChars_splitLines doc.toList
    have hlines (text : String) : commentLines text =
        ((Text.linesChars text.toList).map Text.trimChars).map breakEnds := by
      rw [List.map_map]
      rfl
    have hall : commentLines (doc ++ "\n\n" ++ function.routeText) =
        commentLines doc ++ (rest ++ [[]]).map breakEnds ++ commentLines function.routeText := by
      have hempty : (Text.splitLines []).map Text.dropCarriageReturn = [[]] := rfl
      rw [hlines, htext, Text.linesChars_append, Text.linesChars_append, List.map_append,
        List.map_map, htrim, hsplit, hlines, hlines, hempty]
      simp [Text.trimChars, Text.trimStartChars, Text.trimEndChars]
    rw [hall]
    refine .documented hdoc (by simp) ?_
    rcases hrest with rfl | rfl <;> simp [breakEnds]

/-- For every documentation text the comment is one block comment that says its lines, and the
comment of a method says the lines of its documentation and its route. -/
theorem comment_reads_back (level : Nat) :
    (∀ doc, ∃ inside, IsBlockComment (indentation level).toList inside
        (docComment (indentation level) (some doc)).toList ∧
      readInside inside = commentLines doc) ∧
    ∀ (function : Callable) (config : Config) (flavor : Flavor), ∃ comment inside rest,
      ((function.method config flavor).print level).toList = comment ++ rest ∧
        IsBlockComment (indentation level).toList inside comment ∧
          function.Documents (readInside inside) := by
  refine ⟨docComment_reads level, fun function config flavor ↦ ?_⟩
  obtain ⟨inside, hcomment, hread⟩ := docComment_reads level function.docText
  obtain ⟨rest, hprint⟩ : ∃ rest, (function.method config flavor).print level =
      docComment (indentation level) (some function.docText) ++ rest :=
    ⟨_, by rw [Method.print, String.append_assoc, String.append_assoc]; rfl⟩
  refine ⟨_, inside, rest.toList, by rw [hprint, String.toList_append], hcomment, ?_⟩
  rw [hread]
  exact documents_docText function

end Callable

end TypedClient
