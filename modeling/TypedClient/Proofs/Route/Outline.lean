import Mathlib.Data.List.Chain
import TypedClient.Proofs.Route.Writing

/-!
# The outline of a route

The marks of a route are text between placeholders and the bodies of placeholders, and a
brace that nothing closes is text up to the end. An outline keeps each mark in its place, so
a route can be changed in one place and written again. What is written is read back as
the same outline if no two marks could be taken for a doubled brace.
-/

namespace TypedClient

namespace Route

/-- A mark between placeholders. -/
structure TextMark where
  mark : Mark
  ne_open : mark ≠ .plain '{'

/-- The marks between a brace that opens a placeholder and the brace that closes it. -/
structure Body where
  marks : List Mark
  close_not_mem : .plain '}' ∉ marks

def Body.append (body : Body) (marks : List Mark) (h : .plain '}' ∉ marks) : Body where
  marks := body.marks ++ marks
  close_not_mem := by simp [body.close_not_mem, h]

/-- What the placeholder of the body stands for. -/
def Body.part (body : Body) : RoutePart :=
  placeholder (body.marks.map Mark.char)

theorem Body.exists_part_eq (body : Body) :
    ∃ name optional catchAll, body.part = .placeholder name optional catchAll :=
  ⟨_, _, _, rfl⟩

inductive Outline where
  | done
  | unclosed (body : Body)
  | text (mark : TextMark) (rest : Outline)
  | placeholder (body : Body) (rest : Outline)

namespace Outline

/-- The outline of the remaining marks and, inside a placeholder, of those since its opening
brace. -/
def ofMarks : Option Body → List Mark → Outline
  | none, [] => done
  | some body, [] => unclosed body
  | none, mark :: rest =>
    if h : mark = .plain '{' then ofMarks (some ⟨[], List.not_mem_nil⟩) rest
    else text ⟨mark, h⟩ (ofMarks none rest)
  | some body, mark :: rest =>
    if h : mark = .plain '}' then placeholder body (ofMarks none rest)
    else ofMarks (some (body.append [mark] (by simpa using Ne.symm h))) rest

def ofText (text : List Char) : Outline :=
  ofMarks none (Route.marks text)

def marks : Outline → List Mark
  | done => []
  | unclosed body => .plain '{' :: body.marks
  | text mark rest => mark.mark :: rest.marks
  | placeholder body rest => .plain '{' :: (body.marks ++ .plain '}' :: rest.marks)

def source (outline : Outline) : List Char :=
  outline.marks.flatMap Mark.source

/-- The parts of a route, its text character by character. -/
def parts : Outline → List RoutePart
  | done => []
  | unclosed body => [.literal (String.ofList ('{' :: body.marks.flatMap Mark.source))]
  | text mark rest => .literal (String.ofList [mark.mark.char]) :: rest.parts
  | placeholder body rest => body.part :: rest.parts

/-- Text in front of an outline. -/
def withText (pending : List TextMark) (outline : Outline) : Outline :=
  pending.foldr text outline

theorem marks_withText (pending : List TextMark) (outline : Outline) :
    (outline.withText pending).marks = pending.map TextMark.mark ++ outline.marks := by
  induction pending with
  | nil => rfl
  | cons mark pending ih => exact congrArg (mark.mark :: ·) ih

/-! ## Marks of an outline -/

theorem marks_ofMarks (body : Option Body) (ms : List Mark) :
    (ofMarks body ms).marks = (body.elim [] fun body ↦ .plain '{' :: body.marks) ++ ms := by
  fun_induction ofMarks body ms with
  | case1 => rfl
  | case2 body => simp [marks]
  | case3 rest ih => simp [ih]
  | case4 mark rest hopen ih => simp [marks, ih]
  | case5 body rest ih => simp [marks, ih]
  | case6 body mark rest hclose ih =>
    rw [ih]
    simp [Body.append]

theorem ofMarks_body (body : Body) {more : List Mark} (hmore : .plain '}' ∉ more)
    (rest : List Mark) :
    ofMarks (some body) (more ++ rest) = ofMarks (some (body.append more hmore)) rest := by
  induction more generalizing body with
  | nil => simp [Body.append]
  | cons mark more ih =>
    simp only [List.mem_cons, not_or] at hmore
    rw [List.cons_append, ofMarks, dif_neg (Ne.symm hmore.1), ih _ hmore.2]
    simp [Body.append]

theorem ofMarks_marks (outline : Outline) : ofMarks none outline.marks = outline := by
  induction outline with
  | done => rfl
  | unclosed body =>
    have hbody := ofMarks_body ⟨[], List.not_mem_nil⟩ body.close_not_mem []
    rw [List.append_nil] at hbody
    rw [marks, ofMarks, dif_pos rfl, hbody]
    rfl
  | text mark rest ih => rw [marks, ofMarks, dif_neg mark.ne_open, ih]
  | placeholder body rest ih =>
    rw [marks, ofMarks, dif_pos rfl, ofMarks_body _ body.close_not_mem, ofMarks, dif_pos rfl, ih]
    rfl

end Outline

/-! ## Marks that are read as they were written -/

/-- The second mark is not the other half of a brace. -/
def Mark.Apart (left right : Mark) : Prop :=
  ∀ brace, left = .plain brace → brace = '{' ∨ brace = '}' → right.char ≠ brace

structure Legible (ms : List Mark) : Prop where
  brace_of_doubled : ∀ c, .doubled c ∈ ms → c = '{' ∨ c = '}'
  apart : ms.IsChain Mark.Apart

theorem head?_source (mark : Mark) : mark.source.head? = some mark.char := by
  cases mark <;> rfl

theorem head?_flatMap_source (ms : List Mark) :
    (ms.flatMap Mark.source).head? = ms.head?.map Mark.char := by
  cases ms with
  | nil => rfl
  | cons mark ms =>
    rw [List.flatMap_cons, List.head?_append, head?_source]
    rfl

theorem flatMap_source_marks (text : List Char) : (marks text).flatMap Mark.source = text := by
  fun_induction marks text with
  | case1 rest ih => simp [Mark.source, ih]
  | case2 rest ih => simp [Mark.source, ih]
  | case3 c rest _ _ ih => simp [Mark.source, ih]
  | case4 => rfl

theorem head?_marks (text : List Char) : (marks text).head?.map Mark.char = text.head? := by
  rw [← head?_flatMap_source, flatMap_source_marks]

theorem Legible.cons_doubled {ms : List Mark} (h : Legible ms) {c : Char}
    (hc : c = '{' ∨ c = '}') : Legible (.doubled c :: ms) := by
  refine ⟨fun d hd ↦ ?_, h.apart.cons fun right _ brace hplain ↦ nomatch hplain⟩
  rcases List.mem_cons.1 hd with heq | hmem
  · rwa [Mark.doubled.inj heq]
  · exact h.brace_of_doubled d hmem

theorem legible_marks (text : List Char) : Legible (marks text) := by
  fun_induction marks text with
  | case1 rest ih => exact ih.cons_doubled (.inl rfl)
  | case2 rest ih => exact ih.cons_doubled (.inr rfl)
  | case3 c rest hopen hclose ih =>
    refine ⟨fun d hd ↦ ih.brace_of_doubled d (by simpa using hd), ih.apart.cons ?_⟩
    intro right hright brace hplain hbrace hchar
    obtain rfl : c = brace := Mark.plain.inj hplain
    have hhead : rest.head? = some c := by
      rw [← head?_marks, Option.mem_def.1 hright, ← hchar]
      rfl
    obtain ⟨next, rfl⟩ := List.head?_eq_some_iff.1 hhead
    rcases hbrace with rfl | rfl
    · exact hopen next rfl rfl
    · exact hclose next rfl rfl
  | case4 => exact ⟨by simp, .nil⟩

theorem marks_flatMap_source {ms : List Mark} (h : Legible ms) :
    marks (ms.flatMap Mark.source) = ms := by
  induction ms with
  | nil => rfl
  | cons mark ms ih =>
    obtain ⟨hapart, hrest⟩ := List.isChain_cons.1 h.apart
    have hmarks := ih ⟨fun c hc ↦ h.brace_of_doubled c (.tail _ hc), hrest⟩
    cases mark with
    | doubled c =>
      have hread : marks (c :: c :: ms.flatMap Mark.source) =
          .doubled c :: marks (ms.flatMap Mark.source) := by
        rcases h.brace_of_doubled c (.head _) with rfl | rfl <;> rfl
      exact hread.trans (congrArg _ hmarks)
    | plain c =>
      have hread : marks (c :: ms.flatMap Mark.source) =
          .plain c :: marks (ms.flatMap Mark.source) := by
        by_cases hc : c = '{' ∨ c = '}'
        · refine marks_cons fun hhead ↦ ?_
          rw [head?_flatMap_source, Option.map_eq_some_iff] at hhead
          obtain ⟨next, hnext, hchar⟩ := hhead
          exact hapart next hnext c rfl hc hchar
        · obtain ⟨hopen, hclose⟩ := not_or.1 hc
          exact marks_cons_of_ne _ hopen hclose
      exact hread.trans (congrArg _ hmarks)

namespace Outline

theorem marks_ofText (text : List Char) : (ofText text).marks = Route.marks text := by
  rw [ofText, marks_ofMarks]
  rfl

theorem source_ofText (text : List Char) : (ofText text).source = text := by
  rw [source, marks_ofText, flatMap_source_marks]

/-- An outline is read back from what it is written as. -/
theorem ofText_source {outline : Outline} (h : Legible outline.marks) :
    ofText outline.source = outline := by
  rw [ofText, source, marks_flatMap_source h, ofMarks_marks]

end Outline

end Route

end TypedClient
