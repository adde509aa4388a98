import TypedClient.Proofs.Route.Writing

/-!
# Constraints of placeholders

A placeholder may carry a constraint, whose argument stands in parentheses with its
braces doubled. The argument is text for the host framework, but it is searched for a
default value like everything behind the name. So it never changes the name, and it makes
the placeholder optional exactly if it contains an equals sign.
-/

namespace TypedClient

namespace Route

/-- What stands behind the name of a placeholder, with the braces of the argument as they are
meant. -/
def constraintText (constraint argument : String) : List Char :=
  ':' :: (constraint.toList ++ '(' :: (argument.toList ++ [')']))

/-- What stands between the braces of a placeholder with a constraint. -/
def constrainedBody (name constraint argument : String) (optional : Bool) : List Char :=
  name.toList ++ constraintText constraint argument ++ if optional then ['?'] else []

/-- A placeholder with a constraint, as it is written. -/
def constrained (name constraint argument : String) (optional : Bool) : List Char :=
  '{' :: (name.toList ++ ':' :: (constraint.toList ++ '(' :: (doubled argument.toList ++
    ')' :: ((if optional then ['?'] else []) ++ ['}']))))

section

variable {name constraint argument : String}

/-! ## The placeholder -/

theorem PlainName.not_mem (h : PlainName name) {c : Char} (hc : c ∈ placeholderMarks) :
    c ∉ name.toList :=
  fun hmem ↦ h.unmarked c hmem hc

theorem dropStars_of_head_ne {text : List Char} (h : text.head? ≠ some '*') :
    dropStars text = (text, false) := by
  cases text with
  | nil => rfl
  | cons c text =>
    have hc : c ≠ '*' := by simpa using h
    simp [dropStars, hc]

theorem head?_constrainedBody (hname : PlainName name) (optional : Bool) :
    (constrainedBody name constraint argument optional).head? ≠ some '*' := by
  rw [constrainedBody]
  cases hchars : name.toList with
  | nil => simp [constraintText]
  | cons c chars =>
    have hstar : '*' ∉ name.toList := hname.not_mem (by decide)
    rw [hchars, List.mem_cons, not_or] at hstar
    simpa using Ne.symm hstar.1

theorem getLast?_constraintText (front : List Char) :
    (front ++ constraintText constraint argument).getLast? = some ')' := by
  have hassoc : front ++ constraintText constraint argument =
      front ++ ':' :: (constraint.toList ++ '(' :: argument.toList) ++ [')'] := by
    simp [constraintText]
  rw [hassoc, List.getLast?_concat]

/-- The text is cut in the argument, if at all, when it is searched for a default value. -/
theorem cutAt_constraintText (hname : PlainName name) (hconstraint : PlainName constraint)
    (argument : String) :
    ∃ rest, cutAt '=' (name.toList ++ constraintText constraint argument) =
      (name.toList ++ ':' :: rest, argument.toList.contains '=') := by
  have hdefault : '=' ∈ placeholderMarks := by decide
  have hfront : '=' ∉ name.toList ++ ':' :: (constraint.toList ++ ['(']) := by
    simp [hname.not_mem hdefault, hconstraint.not_mem hdefault]
  have hcut := cutAt_append hfront (argument.toList ++ [')'])
  have hcontains : (cutAt '=' (argument.toList ++ [')'])).2 = argument.toList.contains '=' := by
    simp [cutAt]
  rw [hcontains] at hcut
  exact ⟨_, by simpa [constraintText] using hcut⟩

theorem cutAt_name (hname : PlainName name) (rest : List Char) :
    cutAt ':' (name.toList ++ ':' :: rest) = (name.toList, true) := by
  have hcolon : ':' ∉ name.toList := hname.not_mem (by decide)
  simpa [cutAt] using cutAt_append hcolon (':' :: rest)

/-- The argument of a constraint is taken for a default value if it contains an equals sign. -/
theorem placeholder_constrainedBody (hname : PlainName name) (hconstraint : PlainName constraint)
    (optional : Bool) :
    placeholder (constrainedBody name constraint argument optional) =
      .placeholder name (optional || argument.toList.contains '=') false := by
  obtain ⟨rest, hdefault⟩ := cutAt_constraintText hname hconstraint argument
  have hlast : (name.toList ++ constraintText constraint argument).getLast? ≠ some '?' := by
    rw [getLast?_constraintText]
    decide
  have htrim : Text.trimChars name.toList = name.toList :=
    Text.trimChars_eq_self hname.starts hname.ends
  rw [placeholder, dropStars_of_head_ne (head?_constrainedBody hname optional), constrainedBody]
  simp only [dropQuestionMark_append hlast, hdefault, cutAt_name hname, htrim,
    String.ofList_toList]

/-! ## Reading the placeholder -/

/-- The marks between the braces: only those of the argument may be doubled. -/
def constrainedMarks (name constraint argument : String) (optional : Bool) : List Mark :=
  (name.toList ++ ':' :: (constraint.toList ++ ['('])).map .plain ++
    (argument.toList.map .ofChar ++ (')' :: if optional then ['?'] else []).map .plain)

theorem map_char_constrainedMarks (optional : Bool) :
    (constrainedMarks name constraint argument optional).map Mark.char =
      constrainedBody name constraint argument optional := by
  have hdoubled (text : List Char) : (text.map Mark.ofChar).map Mark.char = text := by
    simp [Function.comp_def, char_ofChar]
  have hplain (text : List Char) : (text.map Mark.plain).map Mark.char = text := by
    simp [Function.comp_def, Mark.char]
  rw [constrainedMarks, List.map_append, hplain, List.map_append, hdoubled, hplain]
  simp [constrainedBody, constraintText]

theorem plain_not_mem_constrainedMarks (hname : PlainName name) (hconstraint : PlainName constraint)
    (optional : Bool) :
    Mark.plain '}' ∉ constrainedMarks name constraint argument optional := by
  have hclose : '}' ∈ placeholderMarks := by decide
  have hfront : '}' ∉ name.toList ++ ':' :: (constraint.toList ++ ['(']) := by
    simp [hname.not_mem hclose, hconstraint.not_mem hclose]
  have hend : '}' ∉ ')' :: if optional then ['?'] else [] := by
    cases optional <;> decide
  have hargument : Mark.plain '}' ∉ argument.toList.map Mark.ofChar := by
    rw [List.mem_map]
    rintro ⟨c, -, heq⟩
    exact ofChar_ne_plain (.inr rfl) heq
  rw [constrainedMarks, List.mem_append, List.mem_append, not_or, not_or]
  exact ⟨plain_not_mem_map_plain hfront, hargument, plain_not_mem_map_plain hend⟩

theorem marks_constrained_append (hname : PlainName name) (hconstraint : PlainName constraint)
    (optional : Bool) {rest : List Char} (hrest : rest.head? ≠ some '}') :
    marks (constrained name constraint argument optional ++ rest) = .plain '{' ::
      (constrainedMarks name constraint argument optional ++ .plain '}' :: marks rest) := by
  have hbraces : '{' ∈ placeholderMarks ∧ '}' ∈ placeholderMarks := by decide
  let front := name.toList ++ ':' :: (constraint.toList ++ ['('])
  let back := ')' :: if optional then ['?'] else []
  have hfront : '{' ∉ front ∧ '}' ∉ front := by
    simp [front, hname.not_mem hbraces.1, hname.not_mem hbraces.2, hconstraint.not_mem hbraces.1,
      hconstraint.not_mem hbraces.2]
  have hback : '{' ∉ back ∧ '}' ∉ back := by
    cases optional <;> decide
  have htext : constrained name constraint argument optional ++ rest =
      '{' :: (front ++ (doubled argument.toList ++ (back ++ '}' :: rest))) := by
    simp [constrained, front, back]
  have hopen : (front ++ (doubled argument.toList ++ (back ++ '}' :: rest))).head? ≠ some '{' := by
    obtain ⟨c, chars, hchars⟩ := List.exists_cons_of_ne_nil (show front ≠ [] by simp [front])
    rw [hchars] at hfront ⊢
    simpa using fun heq : c = '{' ↦ hfront.1 (heq ▸ .head _)
  rw [htext, marks_cons hopen, marks_unbraced_append hfront, marks_doubled_append,
    marks_unbraced_append hback, marks_cons hrest, constrainedMarks]
  simp [front, back]

/-- Outside of other placeholders, a placeholder with a constraint is read as one part. -/
theorem partsFrom_constrained (hname : PlainName name) (hconstraint : PlainName constraint)
    (optional : Bool) (pending : List Char) {rest : List Char} (hrest : rest.head? ≠ some '}') :
    partsFrom pending none (marks (constrained name constraint argument optional ++ rest)) =
      literalPart pending.reverse ++
        .placeholder name (optional || argument.toList.contains '=') false ::
          partsFrom [] none (marks rest) := by
  rw [marks_constrained_append hname hconstraint optional hrest, partsFrom,
    partsFrom_body pending (plain_not_mem_constrainedMarks hname hconstraint optional),
    List.append_nil, partsFrom, List.reverse_reverse, map_char_constrainedMarks,
    placeholder_constrainedBody hname hconstraint]

/-! ## Tokens -/

/-- A token in a placeholder with a constraint would stand in the argument. -/
theorem not_infix_constrained (hname : PlainName name) (hconstraint : PlainName constraint)
    (optional : Bool) {tail : List Char} (htail : '{' ∉ tail ∧ '}' ∉ tail ∧ ')' ∉ tail)
    (hargument : ¬ '[' :: tail <:+: argument.toList) :
    ¬ '[' :: tail <:+: constrained name constraint argument optional := by
  let front := '{' :: (name.toList ++ ':' :: (constraint.toList ++ ['(']))
  let back := ')' :: ((if optional then ['?'] else []) ++ ['}'])
  have hmark : '[' ∈ placeholderMarks := by decide
  have hfront : '[' ∉ front := by
    simp [front, hname.not_mem hmark, hconstraint.not_mem hmark]
  have hback : '[' ∉ back := by
    cases optional <;> decide
  have htext : constrained name constraint argument optional =
      front ++ (doubled argument.toList ++ back) := by
    simp [constrained, front, back]
  have htoken : '{' ∉ '[' :: tail ∧ '}' ∉ '[' :: tail := by
    simpa using ⟨htail.1, htail.2.1⟩
  have hend : ∀ c ∈ back.head?, c ∉ '[' :: tail := by
    intro c hc
    obtain rfl : ')' = c := Option.some.inj hc
    simpa using htail.2.2
  intro hinfix
  rw [htext] at hinfix
  rcases infix_of_infix_doubled (List.cons_ne_nil _ _) htoken hend
    (infix_of_infix_append hfront hinfix) with hfound | hfound
  · exact hargument hfound
  · exact hback (hfound.subset (.head _))

theorem expand_constrained (hname : PlainName name) (hconstraint : PlainName constraint)
    (hcontroller : ¬ controllerToken.toList <:+: argument.toList)
    (haction : ¬ actionToken.toList <:+: argument.toList) (optional : Bool)
    (controller action : String) :
    expand (String.ofList (constrained name constraint argument optional)) controller action =
      constrained name constraint argument optional := by
  let text := constrained name constraint argument optional
  have htildes : text.dropWhile (· == '~') = text := by
    simp [text, constrained]
  have hcontroller : ¬ controllerToken.toList <:+: text :=
    not_infix_constrained hname hconstraint optional (by decide) hcontroller
  have haction : ¬ actionToken.toList <:+: text :=
    not_infix_constrained hname hconstraint optional (by decide) haction
  rw [expand, String.toList_ofList, htildes, Text.replaceChars_eq_self hcontroller,
    Text.replaceChars_eq_self haction]

/-- A placeholder with a constraint is read under its name and never as a catch-all one, wherever
it stands. It is optional if it is marked so, and also if the argument of the constraint contains
an equals sign. -/
theorem reads_constrained (hname : PlainName name) (hconstraint : PlainName constraint)
    (hcontroller : ¬ controllerToken.toList <:+: argument.toList)
    (haction : ¬ actionToken.toList <:+: argument.toList) (optional : Bool) :
    (∀ pending rest, rest.head? ≠ some '}' →
      partsFrom pending none (marks (constrained name constraint argument optional ++ rest)) =
        literalPart pending.reverse ++
          .placeholder name (optional || argument.toList.contains '=') false ::
            partsFrom [] none (marks rest)) ∧
    ∀ controller action,
      parts (String.ofList (constrained name constraint argument optional)) controller action =
        [.literal "/", .placeholder name (optional || argument.toList.contains '=') false] := by
  refine ⟨fun pending rest ↦ partsFrom_constrained hname hconstraint optional pending,
    fun controller action ↦ ?_⟩
  have hslash : (constrained name constraint argument optional).head? ≠ some '/' := by
    simp [constrained]
  rw [parts, expand_constrained hname hconstraint hcontroller haction, partsOfText, if_neg hslash,
    ← List.append_nil (constrained name constraint argument optional),
    partsFrom_constrained hname hconstraint optional ['/'] (by simp)]
  rfl

end

/-! ## Arguments with an equals sign -/

theorem plainName_of_all {name : String}
    (h : (name.toList.all fun c ↦ !placeholderMarks.contains c && !Text.isBlank c) = true) :
    PlainName name := by
  have hchars : ∀ c ∈ name.toList, c ∉ placeholderMarks ∧ Text.isBlank c = false := by
    simpa using h
  exact ⟨fun c hc ↦ (hchars c hc).1, fun c hc ↦ (hchars c (List.mem_of_mem_head? hc)).2,
    fun c hc ↦ (hchars c (List.mem_of_mem_getLast? hc)).2⟩

/-- A pattern with braces, a star and an equals sign. -/
def assignment : String := "^[a-z]\x7b2\x7d=*$"

theorem reads_constrained_assignment :
    (PlainName "id" ∧ PlainName "regex" ∧ ¬ controllerToken.toList <:+: assignment.toList ∧
      ¬ actionToken.toList <:+: assignment.toList) ∧
    parts "\x7bid:regex(^[a-z]\x7b\x7b2\x7d\x7d=*$)\x7d" "Orders" "Get" =
      [.literal "/", .placeholder "id" true false] := by
  have hid : PlainName "id" := plainName_of_all (by decide)
  have hregex : PlainName "regex" := plainName_of_all (by decide)
  have hcontroller : ¬ controllerToken.toList <:+: assignment.toList := by decide
  have haction : ¬ actionToken.toList <:+: assignment.toList := by decide
  have hread := (reads_constrained hid hregex hcontroller haction false).2 "Orders" "Get"
  exact ⟨⟨hid, hregex, hcontroller, haction⟩, hread⟩

/-- An equals sign in a constraint makes a required placeholder optional. -/
theorem not_forall_constrained_required : ¬ ∀ name constraint argument controller action,
    PlainName name → PlainName constraint →
      ¬ controllerToken.toList <:+: argument.toList → ¬ actionToken.toList <:+: argument.toList →
        parts (String.ofList (constrained name constraint argument false)) controller action =
          [.literal "/", .placeholder name false false] := by
  intro h
  have hread := h "id" "regex" "^a=b$" "C" "A" (plainName_of_all (by decide))
    (plainName_of_all (by decide)) (by decide) (by decide)
  have hoptional : parts (String.ofList (constrained "id" "regex" "^a=b$" false)) "C" "A" =
      [.literal "/", .placeholder "id" true false] := by decide
  rw [hoptional] at hread
  simp at hread

end Route

end TypedClient
