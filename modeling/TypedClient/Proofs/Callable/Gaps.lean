import TypedClient.Proofs.Callable.Pieces

/-!
# Slashes before gaps

A slash that is all the text since the last parameter stays when a gap closes behind it.
In front of a parameter, and at the end of the path, it is then one slash too many. At the
start of the path it is the slash that every path starts with, and too many only if
the text goes on with another one.
-/

namespace TypedClient

namespace Binding

theorem trimText_of_ne {text : List Char} (h : text ≠ ['/']) : trimText text = dropSlash text := by
  rw [trimText]
  split
  · rfl
  · rename_i hshort
    rw [dropSlash, if_neg]
    intro hslash
    obtain ⟨front, rfl⟩ := List.getLast?_eq_some_iff.1 hslash
    have hfront : front = [] := by simpa using hshort
    exact h (by rw [hfront, List.nil_append])

/-- A slash in front of a text is never the one that is dropped. -/
theorem trimText_cons_slash (text : List Char) :
    trimText ('/' :: text) = '/' :: dropSlash text := by
  cases text with
  | nil => rfl
  | cons c text =>
    rw [trimText_of_ne (by simp), dropSlash, dropSlash, List.getLast?_cons_cons]
    split <;> rfl

theorem head?_dropSlash {text : List Char} (hhead : text.head? = some '/') (hne : text ≠ ['/']) :
    (dropSlash text).head? = some '/' := by
  obtain ⟨rest, rfl⟩ := List.head?_eq_some_iff.1 hhead
  rw [← trimText_of_ne hne, trimText_cons_slash]
  rfl

/-! ## Gapless pieces -/

def Gapless (pieces : List Piece) : Prop :=
  .gap ∉ pieces

theorem gapless_closeUp (trim : List Char → List Char) (text : List Char) (pieces : List Piece) :
    Gapless (closeUp trim text pieces) := by
  unfold Gapless
  fun_induction closeUp trim text pieces with
  | case1 text => simp
  | case2 text c pieces ih => exact ih
  | case3 text pieces ih => exact ih
  | case4 text name catchAll pieces ih => simp [ih]

theorem Gapless.rooted {pieces : List Piece} (h : Gapless pieces) : Gapless (rooted pieces) := by
  unfold Gapless Binding.rooted at *
  split
  · exact h
  · simp [h]

theorem Gapless.closeUp_eq {pieces : List Piece} (h : Gapless pieces)
    (trim : List Char → List Char) (text : List Char) :
    closeUp trim text pieces = text.map .char ++ pieces := by
  unfold Gapless at h
  fun_induction closeUp trim text pieces with
  | case1 text => simp
  | case2 text c pieces ih => simp_all
  | case3 text pieces ih => simp at h
  | case4 text name catchAll pieces ih => simp_all

/-- The pieces that a segment is made of. -/
def ofSegment : UriSegment → List Piece
  | .literal text => text.toList.map .char
  | .parameter name catchAll => [.parameter name catchAll]

theorem flatMap_literalSegment (text : List Char) :
    (literalSegment text).flatMap ofSegment = text.map .char := by
  cases text with
  | nil => rfl
  | cons c text => simp [literalSegment, ofSegment]

/-- The segments of a path show its pieces. -/
theorem flatMap_segmentsFrom {pieces : List Piece} (h : Gapless pieces) (text : List Char) :
    (segmentsFrom text pieces).flatMap ofSegment = text.map .char ++ pieces := by
  unfold Gapless at h
  fun_induction segmentsFrom text pieces with
  | case1 text => simp [flatMap_literalSegment]
  | case2 text c pieces ih => simp_all
  | case3 text pieces ih => simp at h
  | case4 text name catchAll pieces ih => simp_all [flatMap_literalSegment, ofSegment]

theorem segmentsFrom_inj {left right : List Piece} (hleft : Gapless left) (hright : Gapless right) :
    segmentsFrom [] left = segmentsFrom [] right ↔ left = right := by
  refine ⟨fun h ↦ ?_, fun h ↦ congrArg _ h⟩
  have hpieces := congrArg (List.flatMap ofSegment) h
  rwa [flatMap_segmentsFrom hleft, flatMap_segmentsFrom hright] at hpieces

/-! ## A slash too many -/

/-- The text that stands in the path, with a slash that has stayed in front of it. -/
def withKept (kept : Bool) (text : List Char) : List Char :=
  if kept then '/' :: text else text

/-- Text at the opening of a path starts with a slash. -/
def openingText (opening : Bool) (text : List Char) : List Char :=
  if opening = true ∧ text.head? ≠ some '/' then '/' :: text else text

def openingPieces (opening : Bool) (pieces : List Piece) : List Piece :=
  if opening then rooted pieces else pieces

/-- A slash in front of the text is one too many, unless it opens the path. -/
def surplus (opening kept : Bool) (text : List Char) : Bool :=
  kept && (!opening || text.head? == some '/')

/-- Somewhere a slash is one too many that stays when the gap behind it closes. The text is the one
since the last parameter, or since the opening of the path, without such a slash in front. -/
def keepsSlash (opening kept : Bool) (text : List Char) : List Piece → Bool
  | [] => surplus opening kept text
  | .char c :: pieces => keepsSlash opening kept (text ++ [c]) pieces
  | .gap :: pieces => keepsSlash opening (kept || text == ['/']) (dropSlash text) pieces
  | .parameter _ _ :: pieces => surplus opening kept text || keepsSlash false false [] pieces

theorem trimText_withKept (kept : Bool) (text : List Char) :
    trimText (withKept kept text) = withKept (kept || text == ['/']) (dropSlash text) := by
  cases kept with
  | true => exact trimText_cons_slash text
  | false =>
    by_cases hslash : text = ['/']
    · subst hslash
      rfl
    · simp [withKept, hslash, trimText_of_ne hslash]

theorem withKept_eq_iff {opening kept : Bool} {text : List Char}
    (h : opening = true → kept = false → text.head? = some '/') :
    withKept kept text = openingText opening text ↔ surplus opening kept text = false := by
  cases kept with
  | false =>
    cases opening with
    | false => simp [withKept, openingText, surplus]
    | true => simp [withKept, openingText, surplus, h rfl rfl]
  | true =>
    cases opening with
    | false => simp [withKept, openingText, surplus]
    | true =>
      by_cases hslash : text.head? = some '/' <;> simp [withKept, openingText, surplus, hslash]

section

variable {rest : List Piece} (hrest : rest.head? ≠ some (.char '/'))

include hrest

theorem head?_chars_append (text : List Char) :
    (text.map Piece.char ++ rest).head? = some (.char '/') ↔ text.head? = some '/' := by
  cases text with
  | nil => simp [hrest]
  | cons c text => simp

theorem openingPieces_chars_append (opening : Bool) (text : List Char) :
    openingPieces opening (text.map .char ++ rest) =
      (openingText opening text).map .char ++ rest := by
  cases opening with
  | false => simp [openingPieces, openingText]
  | true =>
    rw [openingPieces, if_pos rfl, rooted, openingText]
    by_cases hslash : text.head? = some '/'
    · rw [if_pos ((head?_chars_append hrest text).2 hslash), if_neg fun h ↦ h.2 hslash]
    · rw [if_neg fun h ↦ hslash ((head?_chars_append hrest text).1 h), if_pos ⟨rfl, hslash⟩]
      rfl

end

theorem chars_append_parameter_inj {text text' : List Char} {name : String} {catchAll : Bool}
    {rest rest' : List Piece} :
    text.map Piece.char ++ .parameter name catchAll :: rest =
      text'.map Piece.char ++ .parameter name catchAll :: rest' ↔ text = text' ∧ rest = rest' := by
  induction text generalizing text' with
  | nil => cases text' <;> simp
  | cons c text ih =>
    cases text' with
    | nil => simp
    | cons d text' => simp [ih, and_assoc]

/-- A path whose gaps have closed is the path of the pieces closed up entirely, unless a slash is
one too many. -/
theorem closeUp_withKept_eq_iff {opening kept : Bool} {text : List Char} {pieces : List Piece}
    (h : opening = true → kept = false →
      (text.map Piece.char ++ pieces).head? = some (.char '/')) :
    closeUp trimText (withKept kept text) pieces =
        openingPieces opening (closeUp dropSlash text pieces) ↔
      keepsSlash opening kept text pieces = false := by
  -- Until a parameter comes, the two sides differ by the slash that was kept and by nothing else.
  induction pieces generalizing opening kept text with
  | nil =>
    have hinj : Function.Injective Piece.char := fun _ _ heq ↦ Piece.char.inj heq
    have hnil : ([] : List Piece).head? ≠ some (.char '/') := by simp
    have hhead := head?_chars_append hnil text
    have hopening := openingPieces_chars_append hnil opening text
    simp only [List.append_nil] at h hhead hopening
    rw [closeUp, closeUp, hopening, (List.map_injective_iff.2 hinj).eq_iff, keepsSlash]
    exact withKept_eq_iff fun hopen hkept ↦ hhead.1 (h hopen hkept)
  | cons piece pieces ih =>
    cases piece with
    | char c =>
      have hnext : withKept kept text ++ [c] = withKept kept (text ++ [c]) := by
        cases kept <;> rfl
      rw [closeUp, closeUp, keepsSlash, hnext]
      exact ih fun hopen hkept ↦ by simpa using h hopen hkept
    | gap =>
      rw [closeUp, closeUp, keepsSlash, trimText_withKept]
      refine ih fun hopen hkept ↦ ?_
      obtain ⟨hbefore, hne⟩ := Bool.or_eq_false_iff.1 hkept
      have hgap : (Piece.gap :: pieces).head? ≠ some (.char '/') := by simp
      have hhead := (head?_chars_append hgap text).1 (h hopen hbefore)
      have hdropped := head?_dropSlash hhead (by simpa using hne)
      simp [hdropped]
    | parameter name catchAll =>
      have hparameter : (Piece.parameter name catchAll :: pieces).head? ≠ some (.char '/') := by
        simp
      have htext := withKept_eq_iff fun hopen hkept ↦
        (head?_chars_append hparameter text).1 (h hopen hkept)
      have hlater : closeUp trimText (withKept false []) pieces =
            openingPieces false (closeUp dropSlash [] pieces) ↔
          keepsSlash false false [] pieces = false :=
        ih fun hopen ↦ absurd hopen Bool.false_ne_true
      rw [closeUp, closeUp, openingPieces_chars_append (by simp), chars_append_parameter_inj,
        htext, keepsSlash, Bool.or_eq_false_iff, ← hlater]
      rfl

/-! ## Single slashes -/

/-- Nowhere do two slashes stand next to each other. -/
def Single {α : Type} (slash : α) (list : List α) : Prop :=
  list.IsChain fun left right ↦ left = slash → right ≠ slash

namespace Single

variable {α : Type} {slash piece : α} {list left right : List α}

theorem iff_not_infix : Single slash list ↔ ¬ [slash, slash] <:+: list := by
  rw [Single, List.isChain_iff_forall_rel_of_append_cons_cons]
  constructor
  · intro h hinfix
    obtain ⟨before, after, heq⟩ := hinfix
    have hlist : list = before ++ slash :: slash :: after := by simp [← heq]
    exact h hlist rfl rfl
  · rintro h _ _ before after rfl rfl rfl
    exact h ⟨before, after, by simp⟩

theorem append_cons_iff (hpiece : piece ≠ slash) :
    Single slash (left ++ piece :: right) ↔ Single slash left ∧ Single slash right := by
  simp [Single, List.isChain_append, List.isChain_cons, hpiece]

theorem cons_iff (hpiece : piece ≠ slash) :
    Single slash (piece :: right) ↔ Single slash right := by
  simp [Single, List.isChain_cons, hpiece]

end Single

theorem single_chars_iff {text : List Char} :
    Single (.char '/') (text.map Piece.char) ↔ Single '/' text := by
  simp [Single, List.isChain_map]

theorem single_rooted {pieces : List Piece} (h : Single (.char '/') pieces) :
    Single (.char '/') (rooted pieces) := by
  unfold rooted
  split
  · exact h
  · rename_i hhead
    exact List.IsChain.cons h fun next hnext _ heq ↦ hhead (heq ▸ hnext)

theorem getLast?_dropSlash {text : List Char} (h : Single '/' text) :
    (dropSlash text).getLast? ≠ some '/' := by
  rw [dropSlash]
  split
  · rename_i hslash
    obtain ⟨front, rfl⟩ := List.getLast?_eq_some_iff.1 hslash
    rw [List.dropLast_concat]
    intro hlast
    exact (List.isChain_append.1 h).2.2 '/' hlast '/' rfl rfl rfl
  · rename_i hslash
    exact hslash

theorem single_dropSlash {text : List Char} (h : Single '/' text) :
    Single '/' (dropSlash text) := by
  rw [dropSlash]
  split
  · exact List.IsChain.dropLast h
  · exact h

/-- Closing a gap brings no slashes together. -/
theorem single_of_gap {text : List Char} {pieces : List Piece}
    (h : Single (.char '/') (text.map .char ++ .gap :: pieces)) :
    Single (.char '/') ((dropSlash text).map .char ++ pieces) := by
  obtain ⟨htext, hpieces⟩ := (Single.append_cons_iff (by simp)).1 h
  rw [single_chars_iff] at htext
  refine List.IsChain.append (single_chars_iff.2 (single_dropSlash htext)) hpieces ?_
  intro last hlast next hnext heq
  rw [heq, List.getLast?_map, Option.mem_def, Option.map_eq_some_iff] at hlast
  obtain ⟨c, hc, hslash⟩ := hlast
  exact absurd (Piece.char.inj hslash ▸ hc) (getLast?_dropSlash htext)

theorem single_closeUp {text : List Char} {pieces : List Piece}
    (h : Single (.char '/') (text.map .char ++ pieces)) :
    Single (.char '/') (closeUp dropSlash text pieces) := by
  induction pieces generalizing text with
  | nil => simpa [closeUp] using h
  | cons piece pieces ih =>
    cases piece with
    | char c => exact ih (by simpa using h)
    | gap => exact ih (single_of_gap h)
    | parameter name catchAll =>
      obtain ⟨htext, hpieces⟩ := (Single.append_cons_iff (by simp)).1 h
      exact (Single.append_cons_iff (by simp)).2 ⟨htext, ih (by simpa using hpieces)⟩

/-- A gap at the end leaves no slash there. -/
theorem getLast?_closeUp_gap {text : List Char} {pieces : List Piece}
    (h : Single (.char '/') (text.map .char ++ (pieces ++ [.gap]))) :
    (closeUp dropSlash text (pieces ++ [.gap])).getLast? ≠ some (.char '/') := by
  induction pieces generalizing text with
  | nil =>
    have htext := (Single.append_cons_iff (by simp)).1 h
    have hlast := getLast?_dropSlash (single_chars_iff.1 htext.1)
    simpa [closeUp] using hlast
  | cons piece pieces ih =>
    rw [List.cons_append] at h ⊢
    cases piece with
    | char c => exact ih (by simpa using h)
    | gap => exact ih (single_of_gap h)
    | parameter name catchAll =>
      have hlast : (closeUp dropSlash [] (pieces ++ [.gap])).getLast? ≠ some (.char '/') :=
        ih ((Single.append_cons_iff (by simp)).1 h).2
      rw [closeUp, List.getLast?_append_of_ne_nil _ (List.cons_ne_nil _ _)]
      cases hrest : closeUp dropSlash [] (pieces ++ [.gap]) with
      | nil => simp
      | cons next rest => rwa [List.getLast?_cons_cons, ← hrest]

/-! ## Segments -/

section

variable {pieces : List Piece} (hgapless : Gapless pieces)

include hgapless

theorem single_of_mem_segmentsFrom (h : Single (.char '/') pieces) {text : String}
    (htext : .literal text ∈ segmentsFrom [] pieces) : Single '/' text.toList := by
  obtain ⟨before, after, hpath⟩ := List.append_of_mem htext
  have hpieces := flatMap_segmentsFrom hgapless []
  rw [hpath, List.flatMap_append, List.flatMap_cons, List.map_nil, List.nil_append] at hpieces
  rw [← single_chars_iff]
  exact List.IsChain.infix h ⟨_, _, by rw [← hpieces, List.append_assoc]; rfl⟩

theorem getLast?_of_getLast?_segmentsFrom (h : pieces.getLast? ≠ some (.char '/')) {text : String}
    (htext : (segmentsFrom [] pieces).getLast? = some (.literal text)) :
    text.toList.getLast? ≠ some '/' := by
  obtain ⟨front, hpath⟩ := List.getLast?_eq_some_iff.1 htext
  have hpieces := flatMap_segmentsFrom hgapless []
  rw [hpath, List.flatMap_append, List.flatMap_cons, List.map_nil, List.nil_append] at hpieces
  intro hslash
  obtain ⟨chars, hchars⟩ := List.getLast?_eq_some_iff.1 hslash
  exact h (by simp [← hpieces, ofSegment, hchars])

end

end Binding

end TypedClient
