import TypedClient.Proofs.PathShape
import TypedClient.Route

/-!
# Shape of routes

Whatever the text of a route is, its parts form a path: reading collects text
until a placeholder is complete, and what is pending at the end is one text.
-/

namespace TypedClient

namespace RoutePart

def text? : RoutePart → Option String
  | literal text => some text
  | placeholder .. => none

end RoutePart

namespace Route

theorem text?_placeholder (body : List Char) : (placeholder body).text? = none := rfl

theorem literalPart_of_ne_nil {text : List Char} (h : text ≠ []) :
    literalPart text = [.literal (String.ofList text)] := by
  cases text with
  | nil => contradiction
  | cons c text => rfl

theorem merged_literalPart_append (text : List Char) {parts : List RoutePart}
    (h : Merged RoutePart.text? parts) (hhead : parts.head?.bind RoutePart.text? = none) :
    Merged RoutePart.text? (literalPart text ++ parts) := by
  by_cases htext : text = []
  · rwa [htext, literalPart, List.nil_append]
  · rw [literalPart_of_ne_nil htext, List.singleton_append]
    exact h.cons_of_head (by simpa [RoutePart.text?] using htext) hhead

theorem merged_partsFrom (pending : List Char) (body : Option (List Mark)) (marks : List Mark) :
    Merged RoutePart.text? (partsFrom pending body marks) := by
  fun_induction partsFrom pending body marks with
  | case1 pending => simpa using merged_literalPart_append pending.reverse .nil rfl
  | case2 pending body =>
    simpa using merged_literalPart_append
      (pending.reverse ++ '{' :: body.reverse.flatMap Mark.source) .nil rfl
  | case3 pending rest ih => exact ih
  | case4 pending mark rest _ ih => exact ih
  | case5 pending body rest ih =>
    exact merged_literalPart_append _ (ih.cons_of_eq_none (text?_placeholder _)) rfl
  | case6 pending body mark rest _ ih => exact ih

/-- Text that is pending opens the parts. -/
theorem head_partsFrom {first : Char} {pending : List Char} {body : Option (List Mark)}
    {marks : List Mark} (h : pending.getLast? = some first) :
    ∃ text, (partsFrom pending body marks).head?.bind RoutePart.text? = some text ∧
      text.toList.head? = some first := by
  have hopens (text : List Char) (parts : List RoutePart) (htext : text.head? = some first) :
      ∃ opening, (literalPart text ++ parts).head?.bind RoutePart.text? = some opening ∧
        opening.toList.head? = some first := by
    have hne : text ≠ [] := by
      rintro rfl
      contradiction
    refine ⟨String.ofList text, ?_, by simpa using htext⟩
    rw [literalPart_of_ne_nil hne]
    rfl
  have hfirst {pending : List Char} (h : pending.getLast? = some first) :
      pending.reverse.head? = some first := by
    rwa [List.head?_reverse]
  fun_induction partsFrom pending body marks with
  | case1 pending => simpa using hopens pending.reverse [] (hfirst h)
  | case2 pending body =>
    have hhead : (pending.reverse ++ '{' :: body.reverse.flatMap Mark.source).head? =
        some first := by
      rw [List.head?_append, hfirst h, Option.some_or]
    simpa using hopens _ [] hhead
  | case3 pending rest ih => exact ih h
  | case4 pending mark rest _ ih =>
    refine ih ?_
    rw [List.getLast?_cons, h]
    rfl
  | case5 pending body rest ih => exact hopens _ _ (hfirst h)
  | case6 pending body mark rest _ ih => exact ih h

theorem pathShape_partsOfText (text : List Char) :
    PathShape RoutePart.text? (partsOfText text) := by
  refine ⟨merged_partsFrom _ _ _, ?_⟩
  by_cases hslash : text.head? = some '/'
  · obtain ⟨rest, rfl⟩ := List.head?_eq_some_iff.1 hslash
    have hread : partsFrom [] none (marks ('/' :: rest)) = partsFrom ['/'] none (marks rest) := by
      simp [marks, partsFrom, Mark.char]
    rw [partsOfText, if_pos hslash, hread]
    exact head_partsFrom rfl
  · rw [partsOfText, if_neg hslash]
    exact head_partsFrom rfl

/-- The parts of every route form a path. -/
theorem pathShape_parts (route controller action : String) :
    PathShape RoutePart.text? (parts route controller action) :=
  pathShape_partsOfText _

end Route

end TypedClient
