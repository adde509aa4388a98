import TypedClient.Proofs.Callable.Path
import TypedClient.Proofs.Route.Outline

/-!
# The pieces of a path

Once its placeholders have claimed their parameters, a route is a list of characters,
parameters and gaps, where a gap is an optional placeholder that goes without. Gaps close
from left to right: each takes the slash before it along, except that a slash which is
all the text since the last parameter stays where it is. Closing gaps without that
exception gives the same path unless one of these slashes is still there at the end.
-/

namespace TypedClient

namespace Binding

open Route (Outline)

inductive Piece where
  | char (c : Char)
  | gap
  | parameter (name : String) (catchAll : Bool)
  deriving DecidableEq, Repr

/-- The pieces of a route with the slots that its placeholders leave, or with the first required
placeholder that finds none, where the pieces end. -/
structure Resolved where
  pieces : List Piece
  left : Except String (List Slot)

def Resolved.after (front : List Piece) (rest : Resolved) : Resolved :=
  { pieces := front ++ rest.pieces, left := rest.left }

def resolve (slots : List Slot) : List RoutePart → Resolved
  | [] => { pieces := [], left := .ok slots }
  | .literal text :: parts => (resolve slots parts).after (text.toList.map .char)
  | .placeholder name optional catchAll :: parts =>
    match claim? name slots with
    | some (parameter, slots) =>
      (resolve slots parts).after [.parameter parameter.name catchAll]
    | none =>
      if optional then (resolve slots parts).after [.gap] else { pieces := [], left := .error name }

def dropSlash (text : List Char) : List Char :=
  if text.getLast? = some '/' then text.dropLast else text

/-- Drops the slash at the end of a text, unless it is the whole text. -/
def trimText (text : List Char) : List Char :=
  if 1 < text.length then dropSlash text else text

/-- Closes the gaps behind the text since the last parameter. -/
def closeUp (trim : List Char → List Char) (text : List Char) : List Piece → List Piece
  | [] => text.map .char
  | .char c :: pieces => closeUp trim (text ++ [c]) pieces
  | .gap :: pieces => closeUp trim (trim text) pieces
  | .parameter name catchAll :: pieces =>
    text.map .char ++ .parameter name catchAll :: closeUp trim [] pieces

def literalSegment : List Char → List UriSegment
  | [] => []
  | text => [.literal (String.ofList text)]

def segmentsFrom (text : List Char) : List Piece → List UriSegment
  | [] => literalSegment text
  | .char c :: pieces => segmentsFrom (text ++ [c]) pieces
  | .gap :: pieces => segmentsFrom text pieces
  | .parameter name catchAll :: pieces =>
    literalSegment text ++ .parameter name catchAll :: segmentsFrom [] pieces

/-- The pieces with the slash that every path starts with. -/
def rooted (pieces : List Piece) : List Piece :=
  if pieces.head? = some (.char '/') then pieces else .char '/' :: pieces

namespace Resolved

@[simp]
theorem after_nil (rest : Resolved) : rest.after [] = rest := rfl

@[simp]
theorem after_after (front more : List Piece) (rest : Resolved) :
    (rest.after more).after front = rest.after (front ++ more) := by
  simp [after]

@[simp]
theorem pieces_after (front : List Piece) (rest : Resolved) :
    (rest.after front).pieces = front ++ rest.pieces := rfl

@[simp]
theorem left_after (front : List Piece) (rest : Resolved) :
    (rest.after front).left = rest.left := rfl

end Resolved

section

variable {trim : List Char → List Char} {pieces : List Piece}

@[simp]
theorem closeUp_chars_append (text more : List Char) :
    closeUp trim text (more.map .char ++ pieces) = closeUp trim (text ++ more) pieces := by
  induction more generalizing text with
  | nil => simp
  | cons c more ih => simp [closeUp, ih]

@[simp]
theorem segmentsFrom_chars_append (text more : List Char) :
    segmentsFrom text (more.map .char ++ pieces) = segmentsFrom (text ++ more) pieces := by
  induction more generalizing text with
  | nil => simp
  | cons c more ih => simp [segmentsFrom, ih]

theorem closeUp_chars (trim : List Char → List Char) (text more : List Char) :
    closeUp trim text (more.map .char) = (text ++ more).map .char := by
  have hclosed : closeUp trim text (more.map .char ++ []) = closeUp trim (text ++ more) [] :=
    closeUp_chars_append text more
  simpa [closeUp] using hclosed

theorem segmentsFrom_chars (text more : List Char) :
    segmentsFrom text (more.map .char) = literalSegment (text ++ more) := by
  have hsegments : segmentsFrom text (more.map .char ++ []) = segmentsFrom (text ++ more) [] :=
    segmentsFrom_chars_append text more
  simpa [segmentsFrom] using hsegments

end

theorem resolve_of_claim? {name : String} {slots left : List Slot} {parameter : Parameter}
    (h : claim? name slots = some (parameter, left)) (optional catchAll : Bool)
    (parts : List RoutePart) :
    resolve slots (.placeholder name optional catchAll :: parts) =
      (resolve left parts).after [.parameter parameter.name catchAll] := by
  rw [resolve, h]

theorem resolve_of_unclaimed {name : String} {slots : List Slot} (h : claim? name slots = none)
    (optional catchAll : Bool) (parts : List RoutePart) :
    resolve slots (.placeholder name optional catchAll :: parts) =
      if optional then (resolve slots parts).after [.gap]
      else { pieces := [], left := .error name } := by
  rw [resolve, h]

theorem literalSegment_of_ne_nil {text : List Char} (h : text ≠ []) :
    literalSegment text = [.literal (String.ofList text)] := by
  cases text with
  | nil => contradiction
  | cons c text => rfl

/-! ## Filling a route closes its gaps -/

section

variable {segments : List UriSegment}

theorem appendLiteral_literalSegment (h : segments.getLast?.bind UriSegment.text? = none)
    (text : List Char) {more : String} (hmore : more ≠ "") :
    appendLiteral (segments ++ literalSegment text) more =
      segments ++ literalSegment (text ++ more.toList) := by
  have hchars : more.toList ≠ [] := by simpa using hmore
  rw [literalSegment_of_ne_nil (List.append_ne_nil_of_right_ne_nil _ hchars), String.ofList_append,
    String.ofList_toList]
  by_cases htext : text = []
  · subst htext
    rw [literalSegment, List.append_nil, appendLiteral]
    split
    · rename_i last hlast
      simp [hlast, UriSegment.text?] at h
    · simp
  · simp [literalSegment_of_ne_nil htext, appendLiteral]

theorem trimSlash_literalSegment (h : segments.getLast?.bind UriSegment.text? = none)
    (text : List Char) :
    trimSlash (segments ++ literalSegment text) = segments ++ literalSegment (trimText text) := by
  by_cases htext : text = []
  · subst htext
    rw [literalSegment, List.append_nil, trimSlash]
    split
    · rename_i last hlast
      simp [hlast, UriSegment.text?] at h
    · simp [trimText, literalSegment]
  · have hlength : (String.ofList text).length = text.length := by
      rw [← String.length_toList, String.toList_ofList]
    have htrim : trimSlash (segments ++ [.literal (String.ofList text)]) =
        if 1 < text.length ∧ text.getLast? = some '/' then
          segments ++ [.literal (String.ofList text.dropLast)]
        else segments ++ [.literal (String.ofList text)] := by
      simp [trimSlash, hlength]
    rw [literalSegment_of_ne_nil htext, htrim, trimText, dropSlash]
    by_cases hlong : 1 < text.length
    · by_cases hslash : text.getLast? = some '/'
      · have hne : text.dropLast ≠ [] := by
          rw [← List.length_pos_iff, List.length_dropLast]
          omega
        rw [if_pos ⟨hlong, hslash⟩, if_pos hlong, if_pos hslash, literalSegment_of_ne_nil hne]
      · rw [if_neg fun hboth ↦ hslash hboth.2, if_pos hlong, if_neg hslash,
          literalSegment_of_ne_nil htext]
    · rw [if_neg fun hboth ↦ hlong hboth.1, if_neg hlong, literalSegment_of_ne_nil htext]

theorem fillFrom_eq_resolve (h : segments.getLast?.bind UriSegment.text? = none)
    (text : List Char) (slots : List Slot) {parts : List RoutePart}
    (hparts : ∀ part ∈ parts, part.text? ≠ some "") :
    fillFrom (segments ++ literalSegment text) slots parts =
      (resolve slots parts).left.map fun left ↦ (segments ++
        segmentsFrom [] (closeUp trimText text (resolve slots parts).pieces), left) := by
  induction parts generalizing segments text slots with
  | nil => simp [fillFrom, resolve, closeUp, segmentsFrom_chars, Except.map]
  | cons part parts ih =>
    obtain ⟨hpart, hrest⟩ := List.forall_mem_cons.1 hparts
    cases part with
    | literal more =>
      have hmore : more ≠ "" := by simpa [RoutePart.text?] using hpart
      rw [fillFrom, appendLiteral_literalSegment h text hmore, ih h _ _ hrest]
      simp [resolve]
    | placeholder name optional catchAll =>
      rw [fillFrom]
      cases hclaim : claim? name slots with
      | some taken =>
        obtain ⟨parameter, left⟩ := taken
        have hlast : (segments ++ literalSegment text ++
            [UriSegment.parameter parameter.name catchAll]).getLast?.bind UriSegment.text? =
            none := by
          simp [UriSegment.text?]
        have hfront := ih hlast [] left hrest
        rw [literalSegment, List.append_nil] at hfront
        rw [resolve_of_claim? hclaim]
        simpa [closeUp, segmentsFrom] using hfront
      | none =>
        rw [resolve_of_unclaimed hclaim]
        cases optional with
        | true => simpa [closeUp, trimSlash_literalSegment h] using ih h (trimText text) slots hrest
        | false => rfl

end

/-! ## The pieces of a text -/

theorem resolve_literalPart_append (slots : List Slot) (text : List Char)
    (parts : List RoutePart) :
    resolve slots (Route.literalPart text ++ parts) =
      (resolve slots parts).after (text.map .char) := by
  by_cases htext : text = []
  · simp [htext, Route.literalPart]
  · simp [Route.literalPart_of_ne_nil htext, resolve]

theorem resolve_cons_congr {left right : List RoutePart}
    (h : ∀ slots, resolve slots left = resolve slots right) (slots : List Slot)
    (part : RoutePart) : resolve slots (part :: left) = resolve slots (part :: right) := by
  cases part <;> simp [resolve, h]

/-- Reading collects text that the outline has character by character. The pieces are the same. -/
theorem resolve_partsFrom (pending : List Char) (body : Option Route.Body)
    (ms : List Route.Mark) (slots : List Slot) :
    resolve slots (Route.partsFrom pending (body.map (·.marks.reverse)) ms) =
      (resolve slots (Outline.ofMarks body ms).parts).after (pending.reverse.map .char) := by
  fun_induction Outline.ofMarks body ms generalizing pending slots with
  | case1 =>
    simpa [Route.partsFrom, Outline.parts] using
      resolve_literalPart_append slots pending.reverse []
  | case2 body =>
    have hpart := resolve_literalPart_append slots
      (pending.reverse ++ '{' :: body.marks.flatMap Route.Mark.source) []
    simpa [Route.partsFrom, Outline.parts, resolve] using hpart
  | case3 rest ih => exact ih pending slots
  | case4 mark rest hopen ih =>
    have hstep : Route.partsFrom pending none (mark :: rest) =
        Route.partsFrom (mark.char :: pending) none rest := by
      rw [Route.partsFrom]
      exact hopen
    have hread := ih (mark.char :: pending) slots
    rw [Option.map_none] at hread ⊢
    rw [hstep, hread, Outline.parts, resolve]
    simp
  | case5 body rest ih =>
    have hrest (slots : List Slot) :
        resolve slots (Route.partsFrom [] none rest) =
          resolve slots (Outline.ofMarks none rest).parts := by
      simpa using ih [] slots
    rw [Option.map_some, Route.partsFrom, resolve_literalPart_append, List.reverse_reverse,
      resolve_cons_congr hrest]
    rfl
  | case6 body mark rest hclose ih =>
    have hstep : Route.partsFrom pending (some body.marks.reverse) (mark :: rest) =
        Route.partsFrom pending (some (mark :: body.marks.reverse)) rest := by
      rw [Route.partsFrom]
      exact hclose
    have hread := ih pending slots
    simpa [Route.Body.append, hstep] using hread

/-- The pieces start with a slash where the text does. -/
theorem head?_resolve_parts (slots : List Slot) (outline : Outline) :
    (resolve slots outline.parts).pieces.head? = some (.char '/') ↔
      outline.source.head? = some '/' := by
  rw [Outline.source, Route.head?_flatMap_source]
  cases outline with
  | done => simp [Outline.parts, Outline.marks, resolve]
  | unclosed body => simp [Outline.parts, Outline.marks, resolve, Route.Mark.char]
  | text mark rest => simp [Outline.parts, Outline.marks, resolve]
  | placeholder body rest =>
    obtain ⟨name, optional, catchAll, hpart⟩ := body.exists_part_eq
    have hhead : (resolve slots (body.part :: rest.parts)).pieces.head? ≠ some (.char '/') := by
      rw [hpart, resolve]
      split
      · simp
      · split <;> simp
    simp [Outline.parts, Outline.marks, hhead, Route.Mark.char]

theorem resolve_partsOfText (slots : List Slot) (text : List Char) :
    resolve slots (Route.partsOfText text) =
      { pieces := rooted (resolve slots (Outline.ofText text).parts).pieces
        left := (resolve slots (Outline.ofText text).parts).left } := by
  have hhead := head?_resolve_parts slots (Outline.ofText text)
  rw [Outline.source_ofText] at hhead
  have hread := resolve_partsFrom (if text.head? = some '/' then [] else ['/']) none
    (Route.marks text) slots
  rw [Option.map_none] at hread
  rw [Route.partsOfText, hread]
  by_cases hslash : text.head? = some '/'
  · rw [rooted, if_pos (hhead.2 hslash), if_pos hslash]
    rfl
  · rw [rooted, if_neg fun h ↦ hslash (hhead.1 h), if_neg hslash]
    rfl

end Binding

end TypedClient
