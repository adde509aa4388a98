import TypedClient.Proofs.Callable.Compile
import TypedClient.Proofs.Route.Shape

/-!
# Paths of compiled operations

Filling a route keeps its shape: text that follows a dropped placeholder joins the
text before it, and a slash that goes with a placeholder leaves text behind. So the
path of every compiled operation is a path in pieces again.
-/

namespace TypedClient

namespace UriSegment

def text? : UriSegment → Option String
  | literal text => some text
  | parameter .. => none

end UriSegment

namespace Binding

variable {segments path : List UriSegment}

theorem pathShape_appendLiteral (h : PathShape UriSegment.text? segments) {text : String}
    (htext : text ≠ "") : PathShape UriSegment.text? (appendLiteral segments text) := by
  unfold appendLiteral
  split
  · rename_i last hlast
    obtain ⟨front, rfl⟩ := List.getLast?_eq_some_iff.1 hlast
    have hne : last.toList ≠ [] := by
      simpa [UriSegment.text?] using h.nonempty (.literal last) (by simp)
    have hfirst : (last ++ text).toList.head? = last.toList.head? := by
      rw [String.toList_append, List.head?_append_of_ne_nil _ hne]
    rw [List.dropLast_concat]
    exact h.replaceLast rfl rfl hfirst
  · rename_i hlast
    have hnone : segments.getLast?.bind UriSegment.text? = none := by
      cases hfound : segments.getLast? with
      | none => rfl
      | some last =>
        cases last with
        | literal text => exact absurd hfound (hlast text)
        | parameter => rfl
    exact h.concat (by simpa [UriSegment.text?] using htext) (.inr hnone)

theorem pathShape_trimSlash (h : PathShape UriSegment.text? segments) :
    PathShape UriSegment.text? (trimSlash segments) := by
  unfold trimSlash
  split
  · rename_i last hlast
    obtain ⟨front, rfl⟩ := List.getLast?_eq_some_iff.1 hlast
    split
    · rename_i htrim
      have hlong : 1 < last.toList.length := by
        rw [String.length_toList]
        exact htrim.1
      have hfirst : (String.ofList last.toList.dropLast).toList.head? = last.toList.head? := by
        rw [String.toList_ofList, List.head?_dropLast, if_pos hlong]
      rw [List.dropLast_concat]
      exact h.replaceLast rfl rfl hfirst
    · exact h
  · exact h

theorem pathShape_fillFrom {parts : List RoutePart} {slots left : List Slot}
    (h : PathShape UriSegment.text? segments)
    (hparts : ∀ part ∈ parts, part.text? ≠ some "")
    (hfill : fillFrom segments slots parts = .ok (path, left)) :
    PathShape UriSegment.text? path := by
  induction parts generalizing segments slots with
  | nil =>
    simp only [fillFrom, Except.ok.injEq, Prod.mk.injEq] at hfill
    exact hfill.1 ▸ h
  | cons part parts ih =>
    obtain ⟨hpart, hrest⟩ := List.forall_mem_cons.1 hparts
    cases part with
    | literal text =>
      have htext : text ≠ "" := by simpa [RoutePart.text?] using hpart
      exact ih (pathShape_appendLiteral h htext) hrest hfill
    | placeholder name optional catchAll =>
      rw [fillFrom] at hfill
      split at hfill
      · rename_i parameter rest _
        have hsegment : (UriSegment.parameter parameter.name catchAll).text? = none := rfl
        exact ih (h.concat (by simp [hsegment]) (.inl hsegment)) hrest hfill
      · split at hfill
        · exact ih (pathShape_trimSlash h) hrest hfill
        · contradiction

/-- A route that is a path is filled to a path. -/
theorem pathShape_of_fillFrom {parts : List RoutePart} {slots left : List Slot}
    (hparts : PathShape RoutePart.text? parts)
    (hfill : fillFrom [] slots parts = .ok (path, left)) : PathShape UriSegment.text? path := by
  obtain ⟨text, htext, hslash⟩ := hparts.rooted
  cases parts with
  | nil => contradiction
  | cons part parts =>
    cases part with
    | placeholder => contradiction
    | literal first =>
      obtain rfl : first = text := Option.some.inj htext
      obtain ⟨hfirst, hrest⟩ := List.forall_mem_cons.1 hparts.nonempty
      have hopening : PathShape UriSegment.text? [.literal first] :=
        ⟨.singleton (by simpa [UriSegment.text?, RoutePart.text?] using hfirst),
          first, rfl, hslash⟩
      exact pathShape_fillFrom hopening hrest hfill

end Binding

namespace Operation

variable {scope : Scope} {docs : DocSource} {operation : Operation}

theorem pathShape_of_bind {bound : Bound} (h : operation.bind = .ok bound) :
    PathShape UriSegment.text? bound.uri.segments := by
  unfold bind at h
  split at h
  · contradiction
  · rename_i segments slots hfill
    obtain rfl := Except.ok.inj h
    exact Binding.pathShape_of_fillFrom (Route.pathShape_parts _ _ _) hfill

theorem pathShape_of_compile {function : Callable}
    (h : operation.compile scope docs = .ok (.compiled function)) :
    PathShape UriSegment.text? function.uri.segments := by
  obtain ⟨-, -, bound, hbind, rfl⟩ := compile_eq_compiled_iff.1 h
  exact pathShape_of_bind hbind

end Operation

end TypedClient
