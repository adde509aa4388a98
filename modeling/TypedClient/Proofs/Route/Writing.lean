import Mathlib.Data.List.Infix
import Mathlib.Data.List.TakeWhile
import TypedClient.Proofs.Route.Shape

/-!
# Writing routes

A list of parts has a text: braces of literal text are doubled, and a placeholder
stands in braces with its marks. Reading that text gives the parts back as long as
every boundary can be seen in it, whatever the owner and the action are called.
-/

namespace TypedClient

namespace Route

def Mark.ofChar (c : Char) : Mark :=
  if c = '{' ∨ c = '}' then .doubled c else .plain c

/-- Literal text with its braces doubled. -/
def doubled (text : List Char) : List Char :=
  (text.map Mark.ofChar).flatMap Mark.source

/-- What stands between the braces of a placeholder. -/
def placeholderBody (name : String) (optional catchAll : Bool) : List Char :=
  (if catchAll then ['*'] else []) ++ (name.toList ++ if optional then ['?'] else [])

def sourceOf : RoutePart → List Char
  | .literal text => doubled text.toList
  | .placeholder name optional catchAll => '{' :: (placeholderBody name optional catchAll ++ ['}'])

def sources (parts : List RoutePart) : List Char :=
  parts.flatMap sourceOf

/-- The text of a route. -/
def write (parts : List RoutePart) : String :=
  String.ofList (sources parts)

/-- Characters that have a meaning in a placeholder, and the one that opens a token. -/
def placeholderMarks : List Char :=
  ['{', '}', '[', '*', '?', '=', ':']

/-- The name of a placeholder that is free of marks and blanks around it. -/
structure PlainName (name : String) : Prop where
  unmarked : ∀ c ∈ name.toList, c ∉ placeholderMarks
  starts : ∀ c ∈ name.toList.head?, Text.isBlank c = false
  ends : ∀ c ∈ name.toList.getLast?, Text.isBlank c = false

/-- Parts whose boundaries can be seen in their text. -/
structure Writable (parts : List RoutePart) : Prop extends PathShape RoutePart.text? parts where
  unclosed : parts.IsChain fun left right ↦
    left.text? = none → ∀ text ∈ right.text?, text.toList.head? ≠ some '}'
  untokened : ∀ part ∈ parts, ∀ text ∈ part.text?,
    ¬ controllerToken.toList <:+: text.toList ∧ ¬ actionToken.toList <:+: text.toList
  plain : ∀ name optional catchAll, .placeholder name optional catchAll ∈ parts → PlainName name

/-! ## Tokens -/

theorem doubled_cons_of_ne {c : Char} (text : List Char) (hopen : c ≠ '{') (hclose : c ≠ '}') :
    doubled (c :: text) = c :: doubled text := by
  have hmark : Mark.ofChar c = .plain c := if_neg (by simp [hopen, hclose])
  rw [doubled, List.map_cons, hmark]
  rfl

theorem doubled_cons_of_brace {c : Char} (text : List Char) (h : c = '{' ∨ c = '}') :
    doubled (c :: text) = c :: c :: doubled text := by
  have hmark : Mark.ofChar c = .doubled c := if_pos h
  rw [doubled, List.map_cons, hmark]
  rfl

section

variable {token rest : List Char}

/-- A word without braces that stands at the front of doubled text stands there undoubled. -/
theorem prefix_of_prefix_doubled (htoken : '{' ∉ token ∧ '}' ∉ token)
    (hrest : ∀ c ∈ rest.head?, c ∉ token) {text : List Char} (h : token <+: doubled text ++ rest) :
    token <+: text := by
  induction text generalizing token with
  | nil =>
    cases token with
    | nil => exact List.prefix_rfl
    | cons x token =>
      obtain ⟨after, hafter⟩ := h
      have hx : x ∉ x :: token := hrest x (by rw [← show _ = rest from hafter]; rfl)
      simp at hx
  | cons c text ih =>
    cases token with
    | nil => exact List.nil_prefix
    | cons x token =>
      have hx : x ≠ '{' ∧ x ≠ '}' := by
        simp only [List.mem_cons, not_or] at htoken
        exact ⟨Ne.symm htoken.1.1, Ne.symm htoken.2.1⟩
      have htail : '{' ∉ token ∧ '}' ∉ token := by
        simp only [List.mem_cons, not_or] at htoken
        exact ⟨htoken.1.2, htoken.2.2⟩
      by_cases hc : c = '{' ∨ c = '}'
      · rw [doubled_cons_of_brace text hc] at h
        have hxc : x = c := (List.cons_prefix_cons.1 h).1
        rcases hc with rfl | rfl <;> simp [hxc] at hx
      · obtain ⟨hopen, hclose⟩ := not_or.1 hc
        rw [doubled_cons_of_ne text hopen hclose] at h
        obtain ⟨rfl, hafter⟩ := List.cons_prefix_cons.1 h
        have hrest : ∀ d ∈ rest.head?, d ∉ token := fun d hd hmem ↦ hrest d hd (.tail _ hmem)
        exact List.cons_prefix_cons.2 ⟨rfl, ih htail hrest hafter⟩

/-- A word without braces that occurs in doubled text occurs undoubled, or behind it. -/
theorem infix_of_infix_doubled (hne : token ≠ []) (htoken : '{' ∉ token ∧ '}' ∉ token)
    (hrest : ∀ c ∈ rest.head?, c ∉ token) {text : List Char} (h : token <:+: doubled text ++ rest) :
    token <:+: text ∨ token <:+: rest := by
  induction text with
  | nil => exact .inr h
  | cons c text ih =>
    have hlater (h : token <:+: doubled text ++ rest) : token <:+: c :: text ∨ token <:+: rest :=
      (ih h).imp_left List.infix_cons
    by_cases hc : c = '{' ∨ c = '}'
    · have hfront (after : List Char) : ¬ token <+: c :: after := by
        intro hprefix
        obtain ⟨x, token, rfl⟩ := List.exists_cons_of_ne_nil hne
        have hxc : x = c := (List.cons_prefix_cons.1 hprefix).1
        rcases hc with rfl | rfl <;> simp [hxc] at htoken
      rw [doubled_cons_of_brace text hc] at h
      have hsecond := (List.infix_cons_iff.1 h).resolve_left (hfront _)
      exact hlater ((List.infix_cons_iff.1 hsecond).resolve_left (hfront _))
    · obtain ⟨hopen, hclose⟩ := not_or.1 hc
      have hsource := doubled_cons_of_ne text hopen hclose
      rcases List.infix_cons_iff.1 (hsource ▸ h) with hprefix | hinfix
      · have hfront : token <+: doubled (c :: text) ++ rest := hsource ▸ hprefix
        exact .inl (prefix_of_prefix_doubled htoken hrest hfront).isInfix
      · exact hlater hinfix

/-- A word occurs behind text that lacks its first character. -/
theorem infix_of_infix_append {first : Char} {front : List Char} (hfront : first ∉ front)
    (h : first :: token <:+: front ++ rest) : first :: token <:+: rest := by
  induction front with
  | nil => exact h
  | cons c front ih =>
    simp only [List.mem_cons, not_or] at hfront
    rcases List.infix_cons_iff.1 h with hprefix | hinfix
    · exact absurd (List.cons_prefix_cons.1 hprefix).1 hfront.1
    · exact ih hfront.2 hinfix

end

theorem sourceOf_placeholder (name : String) (optional catchAll : Bool) :
    sourceOf (.placeholder name optional catchAll) =
      '{' :: (placeholderBody name optional catchAll ++ ['}']) := rfl

theorem sources_cons (part : RoutePart) (parts : List RoutePart) :
    sources (part :: parts) = sourceOf part ++ sources parts := rfl

theorem head?_sources {parts : List RoutePart} (h : parts.head?.bind RoutePart.text? = none) :
    ∀ c ∈ (sources parts).head?, c = '{' := by
  intro c hc
  cases parts with
  | nil => contradiction
  | cons part parts =>
    cases part with
    | literal text => contradiction
    | placeholder name optional catchAll =>
      rw [sources_cons, sourceOf_placeholder] at hc
      exact (Option.some.inj hc).symm

theorem PlainName.not_mem_body {name : String} (h : PlainName name) (optional catchAll : Bool)
    {c : Char} (hc : c ∈ placeholderMarks) (hstar : c ≠ '*') (hmark : c ≠ '?') :
    c ∉ placeholderBody name optional catchAll := by
  have hname : c ∉ name.toList := fun hmem ↦ h.unmarked c hmem hc
  unfold placeholderBody
  cases optional <;> cases catchAll <;> simp [hname, hstar, hmark]

/-- A token of a written route stands in one of its texts. -/
theorem exists_infix_of_infix_sources {tail : List Char} (htail : '{' ∉ tail ∧ '}' ∉ tail)
    {parts : List RoutePart} (hmerged : Merged RoutePart.text? parts)
    (hplain : ∀ name optional catchAll, .placeholder name optional catchAll ∈ parts →
      PlainName name)
    (h : '[' :: tail <:+: sources parts) :
    ∃ part ∈ parts, ∃ text ∈ part.text?, '[' :: tail <:+: text.toList := by
  have htoken : '{' ∉ '[' :: tail ∧ '}' ∉ '[' :: tail := by simpa using htail
  induction parts with
  | nil => simp [sources] at h
  | cons part parts ih =>
    have hlater (h : '[' :: tail <:+: sources parts) :
        ∃ other ∈ part :: parts, ∃ text ∈ other.text?, '[' :: tail <:+: text.toList := by
      obtain ⟨other, hother, hexists⟩ := ih hmerged.tail
        (fun name optional catchAll hmem ↦ hplain name optional catchAll (.tail _ hmem)) h
      exact ⟨other, .tail _ hother, hexists⟩
    rw [sources_cons] at h
    cases part with
    | literal text =>
      have hhead : ∀ c ∈ (sources parts).head?, c ∉ '[' :: tail := by
        intro c hc
        rw [head?_sources (hmerged.head_eq_none (by simp [RoutePart.text?])) c hc]
        exact htoken.1
      rcases infix_of_infix_doubled (List.cons_ne_nil _ _) htoken hhead h with htext | hrest
      · exact ⟨_, .head _, text, rfl, htext⟩
      · exact hlater hrest
    | placeholder name optional catchAll =>
      have hbody := (hplain name optional catchAll (.head _)).not_mem_body optional catchAll
        (c := '[') (by decide) (by decide) (by decide)
      refine hlater (infix_of_infix_append ?_ h)
      simpa [sourceOf] using hbody

/-- The text of a path starts with a slash. -/
theorem exists_sources_eq {parts : List RoutePart} (h : PathShape RoutePart.text? parts) :
    ∃ rest, sources parts = '/' :: rest := by
  obtain ⟨first, hfirst, hslash⟩ := h.rooted
  cases parts with
  | nil => contradiction
  | cons part parts =>
    cases part with
    | placeholder => contradiction
    | literal text =>
      obtain rfl : text = first := Option.some.inj hfirst
      obtain ⟨chars, hchars⟩ := List.head?_eq_some_iff.1 hslash
      refine ⟨doubled chars ++ sources parts, ?_⟩
      rw [sources_cons, sourceOf, hchars, doubled_cons_of_ne chars (by decide) (by decide)]
      rfl

theorem expand_write {parts : List RoutePart} (h : Writable parts) (controller action : String) :
    expand (write parts) controller action = sources parts := by
  obtain ⟨rest, hparts⟩ := exists_sources_eq h.toPathShape
  have htildes : (sources parts).dropWhile (· == '~') = sources parts := by
    simp [hparts]
  have htoken (token : List Char) (hbraces : '{' ∉ token ∧ '}' ∉ token)
      (hfree : ∀ part ∈ parts, ∀ text ∈ part.text?, ¬ '[' :: token <:+: text.toList) :
      ¬ '[' :: token <:+: sources parts := by
    intro hinfix
    obtain ⟨part, hpart, text, htext, hmem⟩ :=
      exists_infix_of_infix_sources hbraces h.toMerged h.plain hinfix
    exact hfree part hpart text htext hmem
  have hcontroller : ¬ controllerToken.toList <:+: sources parts :=
    htoken "controller]".toList (by decide)
      fun part hpart text htext ↦ (h.untokened part hpart text htext).1
  have haction : ¬ actionToken.toList <:+: sources parts :=
    htoken "action]".toList (by decide)
      fun part hpart text htext ↦ (h.untokened part hpart text htext).2
  rw [expand, write, String.toList_ofList, htildes, Text.replaceChars_eq_self hcontroller,
    Text.replaceChars_eq_self haction]

/-! ## Reading what was written -/

theorem marks_cons {c : Char} {rest : List Char} (h : rest.head? ≠ some c) :
    marks (c :: rest) = .plain c :: marks rest := by
  rw [marks]
  · rintro next rfl rfl
    simp at h
  · rintro next rfl rfl
    simp at h

theorem marks_cons_of_ne {c : Char} (rest : List Char) (hopen : c ≠ '{') (hclose : c ≠ '}') :
    marks (c :: rest) = .plain c :: marks rest := by
  rw [marks]
  · exact fun _ heq _ ↦ absurd heq hopen
  · exact fun _ heq _ ↦ absurd heq hclose

/-- Doubled text is read as its own characters, whatever follows it. -/
theorem marks_doubled_append (text rest : List Char) :
    marks (doubled text ++ rest) = text.map Mark.ofChar ++ marks rest := by
  induction text with
  | nil => rfl
  | cons c text ih =>
    rw [List.map_cons, List.cons_append, ← ih]
    by_cases hc : c = '{' ∨ c = '}'
    · have hmark : Mark.ofChar c = .doubled c := if_pos hc
      rw [doubled_cons_of_brace text hc, hmark]
      rcases hc with rfl | rfl <;> rfl
    · obtain ⟨hopen, hclose⟩ := not_or.1 hc
      have hmark : Mark.ofChar c = .plain c := if_neg hc
      rw [doubled_cons_of_ne text hopen hclose, hmark]
      exact marks_cons_of_ne _ hopen hclose

theorem marks_unbraced_append {text : List Char} (htext : '{' ∉ text ∧ '}' ∉ text)
    (rest : List Char) : marks (text ++ rest) = text.map Mark.plain ++ marks rest := by
  induction text with
  | nil => rfl
  | cons c text ih =>
    simp only [List.mem_cons, not_or] at htext
    rw [List.cons_append, marks_cons_of_ne _ (Ne.symm htext.1.1) (Ne.symm htext.2.1),
      ih ⟨htext.1.2, htext.2.2⟩]
    rfl

/-- A placeholder is read as its braces and what stands between them, unless a brace that
follows would double the closing one. -/
theorem marks_placeholder_append {body rest : List Char} (hbody : '{' ∉ body ∧ '}' ∉ body)
    (hrest : rest.head? ≠ some '}') :
    marks ('{' :: (body ++ '}' :: rest)) =
      .plain '{' :: (body.map Mark.plain ++ .plain '}' :: marks rest) := by
  have hopen : (body ++ '}' :: rest).head? ≠ some '{' := by
    cases body with
    | nil => simp
    | cons c body =>
      simp only [List.mem_cons, not_or] at hbody
      simpa using Ne.symm hbody.1.1
  rw [marks_cons hopen, marks_unbraced_append hbody, marks_cons hrest]

theorem char_ofChar (c : Char) : (Mark.ofChar c).char = c := by
  unfold Mark.ofChar
  split <;> rfl

/-- A brace of the text is no brace of a placeholder. -/
theorem ofChar_ne_plain {c brace : Char} (hbrace : brace = '{' ∨ brace = '}') :
    Mark.ofChar c ≠ .plain brace := by
  intro heq
  by_cases hc : c = '{' ∨ c = '}'
  · simp [Mark.ofChar, hc] at heq
  · rw [Mark.ofChar, if_neg hc] at heq
    exact hc (Mark.plain.inj heq ▸ hbrace)

theorem partsFrom_text (pending text : List Char) (rest : List Mark) :
    partsFrom pending none (text.map Mark.ofChar ++ rest) =
      partsFrom (text.reverse ++ pending) none rest := by
  induction text generalizing pending with
  | nil => rfl
  | cons c text ih =>
    rw [List.map_cons, List.cons_append, partsFrom, char_ofChar, ih, List.reverse_cons,
      List.append_assoc]
    · rfl
    · exact ofChar_ne_plain (.inl rfl)

/-- The body of a placeholder goes on as long as nothing closes it. -/
theorem partsFrom_body (pending : List Char) {body : List Mark} (hbody : .plain '}' ∉ body)
    (before rest : List Mark) :
    partsFrom pending (some before) (body ++ rest) =
      partsFrom pending (some (body.reverse ++ before)) rest := by
  induction body generalizing before with
  | nil => rfl
  | cons mark body ih =>
    simp only [List.mem_cons, not_or] at hbody
    rw [List.cons_append, partsFrom, ih hbody.2, List.reverse_cons, List.append_assoc]
    · rfl
    · exact fun heq ↦ hbody.1 heq.symm

theorem plain_not_mem_map_plain {c : Char} {text : List Char} (h : c ∉ text) :
    Mark.plain c ∉ text.map Mark.plain := by
  simpa using h

/-- Text without the character stays in front of where the rest is cut. -/
theorem cutAt_append {c : Char} {front : List Char} (h : c ∉ front) (rest : List Char) :
    cutAt c (front ++ rest) = (front ++ (cutAt c rest).1, (cutAt c rest).2) := by
  have hkeep : ∀ d ∈ front, (d != c) = true := by
    intro d hd
    rw [bne_iff_ne]
    rintro rfl
    exact h hd
  rw [cutAt, cutAt, List.takeWhile_append_of_pos hkeep]
  simp [h]

theorem cutAt_of_not_mem {c : Char} {text : List Char} (h : c ∉ text) :
    cutAt c text = (text, false) := by
  simpa [cutAt] using cutAt_append h []

theorem dropStars_body (name : List Char) (optional catchAll : Bool) (hstar : '*' ∉ name) :
    dropStars ((if catchAll then ['*'] else []) ++ (name ++ if optional then ['?'] else [])) =
      (name ++ if optional then ['?'] else [], catchAll) := by
  cases name with
  | nil => cases optional <;> cases catchAll <;> rfl
  | cons c name =>
    simp only [List.mem_cons, not_or] at hstar
    have hc : c ≠ '*' := Ne.symm hstar.1
    cases catchAll <;> simp [dropStars, hc]

theorem dropQuestionMark_append {text : List Char} (hmark : text.getLast? ≠ some '?')
    (optional : Bool) :
    dropQuestionMark (text ++ if optional then ['?'] else []) = (text, optional) := by
  cases optional with
  | true => simp [dropQuestionMark]
  | false => simp [dropQuestionMark, hmark]

theorem placeholder_body {name : String} (h : PlainName name) (optional catchAll : Bool) :
    placeholder (placeholderBody name optional catchAll) = .placeholder name optional catchAll := by
  have hfree {c : Char} (hc : c ∈ placeholderMarks) : c ∉ name.toList :=
    fun hmem ↦ h.unmarked c hmem hc
  have htrim : Text.trimChars name.toList = name.toList := Text.trimChars_eq_self h.starts h.ends
  rw [placeholder, placeholderBody, dropStars_body _ _ _ (hfree (by decide))]
  have hdefault : '=' ∉ name.toList := hfree (by decide)
  have hconstraint : ':' ∉ name.toList := hfree (by decide)
  have hmark : name.toList.getLast? ≠ some '?' :=
    fun hlast ↦ hfree (by decide) (List.mem_of_getLast? hlast)
  simp only [dropQuestionMark_append hmark, cutAt_of_not_mem hdefault,
    cutAt_of_not_mem hconstraint, htrim, Bool.or_false, String.ofList_toList]

/-- Written parts are read back behind text that is pending, which belongs to no text at their
front. -/
theorem partsFrom_sources {parts : List RoutePart} (hmerged : Merged RoutePart.text? parts)
    (hunclosed : parts.IsChain fun left right ↦
      left.text? = none → ∀ text ∈ right.text?, text.toList.head? ≠ some '}')
    (hplain : ∀ name optional catchAll, .placeholder name optional catchAll ∈ parts →
      PlainName name)
    (pending : List Char) (hpending : pending ≠ [] → parts.head?.bind RoutePart.text? = none) :
    partsFrom pending none (marks (sources parts)) = literalPart pending.reverse ++ parts := by
  induction parts generalizing pending with
  | nil => simp [sources, marks, partsFrom]
  | cons part parts ih =>
    have hrest := ih hmerged.tail hunclosed.tail
      fun name optional catchAll hmem ↦ hplain name optional catchAll (.tail _ hmem)
    cases part with
    | literal text =>
      have hempty : pending = [] := by
        by_contra hne
        exact absurd (hpending hne) (by simp [RoutePart.text?])
      have hne : text.toList ≠ [] := by
        simpa [RoutePart.text?] using hmerged.nonempty _ (.head _)
      have hafter := hmerged.head_eq_none (by simp [RoutePart.text?])
      subst hempty
      rw [sources_cons, sourceOf, marks_doubled_append, partsFrom_text, List.append_nil,
        hrest _ fun _ ↦ hafter, List.reverse_reverse, literalPart_of_ne_nil hne,
        String.ofList_toList]
      rfl
    | placeholder name optional catchAll =>
      have hname := hplain name optional catchAll (.head _)
      have hbody {c : Char} (hc : c ∈ placeholderMarks) (hstar : c ≠ '*') (hmark : c ≠ '?') :
          c ∉ placeholderBody name optional catchAll := hname.not_mem_body _ _ hc hstar hmark
      have hopen := hbody (c := '{') (by decide) (by decide) (by decide)
      have hclose := hbody (c := '}') (by decide) (by decide) (by decide)
      have hnext : (sources parts).head? ≠ some '}' := by
        cases parts with
        | nil => simp [sources]
        | cons next parts =>
          cases next with
          | placeholder => simp [sources, sourceOf]
          | literal text =>
            have hhead := (List.isChain_cons_cons.1 hunclosed).1 rfl text rfl
            have hne : text.toList ≠ [] := by
              simpa [RoutePart.text?] using hmerged.tail.nonempty _ (.head _)
            obtain ⟨c, chars, hchars⟩ := List.exists_cons_of_ne_nil hne
            rw [hchars] at hhead
            rw [sources_cons, sourceOf, hchars]
            by_cases hc : c = '{' ∨ c = '}'
            · rw [doubled_cons_of_brace chars hc]
              exact hhead
            · obtain ⟨hopen, hclose⟩ := not_or.1 hc
              rw [doubled_cons_of_ne chars hopen hclose]
              exact hhead
      have hread : (((placeholderBody name optional catchAll).map Mark.plain).reverse).reverse.map
          Mark.char = placeholderBody name optional catchAll := by
        simp [Function.comp_def, Mark.char]
      rw [sources_cons, sourceOf_placeholder, List.cons_append, List.append_assoc,
        List.singleton_append, marks_placeholder_append ⟨hopen, hclose⟩ hnext, partsFrom,
        partsFrom_body pending (plain_not_mem_map_plain hclose), List.append_nil, partsFrom, hread,
        placeholder_body hname, hrest [] fun hne ↦ absurd rfl hne]
      rfl

/-- Reading a route undoes writing it, and whatever is read is a path. -/
theorem parts_write :
    (∀ parts, Writable parts → ∀ controller action,
      Route.parts (write parts) controller action = parts) ∧
    ∀ route controller action, PathShape RoutePart.text? (Route.parts route controller action) := by
  refine ⟨fun parts h controller action ↦ ?_, pathShape_parts⟩
  obtain ⟨rest, hparts⟩ := exists_sources_eq h.toPathShape
  have hslash : (sources parts).head? = some '/' := by rw [hparts, List.head?_cons]
  rw [Route.parts, expand_write h, partsOfText, if_pos hslash,
    partsFrom_sources h.toMerged h.unclosed h.plain [] fun hne ↦ absurd rfl hne]
  rfl

/-- A path with braces on both sides of its placeholders. -/
def bracedParts : List RoutePart :=
  [.literal "/api/\x7bv\x7d$\x7b", .placeholder "id" false false, .literal "\x7b/",
    .placeholder "rest" true true]

theorem parts_write_bracedParts : Writable bracedParts ∧
    Route.parts "/api/\x7b\x7bv\x7d\x7d$\x7b\x7b\x7bid\x7d\x7b\x7b/\x7b*rest?\x7d" "Orders" "Get" =
      bracedParts := by
  have hplain : ∀ name optional catchAll,
      .placeholder name optional catchAll ∈ bracedParts → PlainName name := by
    intro name optional catchAll hmem
    have hnames : (name = "id" ∧ optional = false ∧ catchAll = false) ∨
        (name = "rest" ∧ optional = true ∧ catchAll = true) := by
      simpa [bracedParts] using hmem
    rcases hnames with ⟨rfl, -, -⟩ | ⟨rfl, -, -⟩
    · exact ⟨by simp [placeholderMarks], by rintro c ⟨⟩; rfl, by rintro c ⟨⟩; rfl⟩
    · exact ⟨by simp [placeholderMarks], by rintro c ⟨⟩; rfl, by rintro c ⟨⟩; rfl⟩
  have hwritable : Writable bracedParts :=
    { nonempty := by decide
      separate := by decide
      rooted := ⟨_, rfl, by decide⟩
      unclosed := by decide
      untokened := by decide
      plain := hplain }
  exact ⟨hwritable, parts_write.1 bracedParts hwritable "Orders" "Get"⟩

end Route

end TypedClient
