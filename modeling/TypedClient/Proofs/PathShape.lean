import Mathlib.Data.List.Chain

/-!
# Pieces of a path

A path is made of texts and of pieces that stand for something else. Texts that
would touch are one text, none is empty, and the path starts with a slash.
-/

namespace TypedClient

section

variable {α : Type} (text? : α → Option String)

/-- No text is empty, and no two texts touch. -/
structure Merged (pieces : List α) : Prop where
  nonempty : ∀ piece ∈ pieces, text? piece ≠ some ""
  separate : pieces.IsChain fun left right ↦ text? left = none ∨ text? right = none

/-- The pieces of a path, of which the first is a text that starts with a slash. -/
structure PathShape (pieces : List α) : Prop extends Merged text? pieces where
  rooted : ∃ text, pieces.head?.bind text? = some text ∧ text.toList.head? = some '/'

end

namespace Merged

variable {α : Type} {text? : α → Option String} {pieces : List α}

theorem nil : Merged text? [] :=
  ⟨by simp, .nil⟩

theorem singleton {piece : α} (h : text? piece ≠ some "") : Merged text? [piece] :=
  ⟨by simpa using h, .singleton piece⟩

/-- Whatever is no text may stand in front of all pieces. -/
theorem cons_of_eq_none (h : Merged text? pieces) {piece : α} (hpiece : text? piece = none) :
    Merged text? (piece :: pieces) := by
  constructor
  · rw [List.forall_mem_cons]
    exact ⟨by simp [hpiece], h.nonempty⟩
  · rw [List.isChain_cons]
    exact ⟨fun _ _ ↦ .inl hpiece, h.separate⟩

/-- A text may stand in front of pieces that do not start with a text. -/
theorem cons_of_head (h : Merged text? pieces) {piece : α} (hpiece : text? piece ≠ some "")
    (hhead : pieces.head?.bind text? = none) : Merged text? (piece :: pieces) := by
  constructor
  · rw [List.forall_mem_cons]
    exact ⟨hpiece, h.nonempty⟩
  · rw [List.isChain_cons]
    refine ⟨fun next hnext ↦ .inr ?_, h.separate⟩
    rw [Option.mem_def] at hnext
    rwa [hnext, Option.bind_some] at hhead

theorem tail {piece : α} (h : Merged text? (piece :: pieces)) : Merged text? pieces :=
  ⟨(List.forall_mem_cons.1 h.nonempty).2, h.separate.tail⟩

/-- What follows a text is no text. -/
theorem head_eq_none {piece : α} (h : Merged text? (piece :: pieces))
    (hpiece : text? piece ≠ none) : pieces.head?.bind text? = none := by
  cases pieces with
  | nil => rfl
  | cons next pieces => exact (List.isChain_cons_cons.1 h.separate).1.resolve_left hpiece

/-- A piece may stand behind all others, unless two texts would touch. -/
theorem concat (h : Merged text? pieces) {piece : α} (hpiece : text? piece ≠ some "")
    (hlast : text? piece = none ∨ pieces.getLast?.bind text? = none) :
    Merged text? (pieces ++ [piece]) := by
  constructor
  · simpa [or_imp, forall_and] using And.intro h.nonempty hpiece
  · refine h.separate.append (.singleton piece) fun last hmem next hnext ↦ ?_
    obtain rfl : piece = next := Option.some.inj hnext
    rcases hlast with hnone | hnone
    · exact .inr hnone
    · rw [Option.mem_def] at hmem
      rw [hmem, Option.bind_some] at hnone
      exact .inl hnone

/-- Pieces may be exchanged for others with the same texts. -/
theorem map {β : Type} {text'? : β → Option String} {f : α → β} (h : Merged text? pieces)
    (hf : ∀ piece, text'? (f piece) = text? piece) : Merged text'? (pieces.map f) := by
  constructor
  · simpa [hf] using h.nonempty
  · simpa [List.isChain_map, hf] using h.separate

/-- The last text may be exchanged for another one. -/
theorem replaceLast {old new : α} (h : Merged text? (pieces ++ [old])) (hold : text? old ≠ none)
    (hnew : text? new ≠ some "") : Merged text? (pieces ++ [new]) := by
  obtain ⟨hfront, -, htouch⟩ := List.isChain_append.1 h.separate
  have hmerged : Merged text? pieces :=
    ⟨fun piece hpiece ↦ h.nonempty piece (List.mem_append_left _ hpiece), hfront⟩
  refine hmerged.concat hnew (.inr ?_)
  cases hlast : pieces.getLast? with
  | none => rfl
  | some last => exact (htouch last hlast old rfl).resolve_right hold

end Merged

namespace PathShape

variable {α : Type} {text? : α → Option String} {pieces : List α}

theorem concat (h : PathShape text? pieces) {piece : α} (hpiece : text? piece ≠ some "")
    (hlast : text? piece = none ∨ pieces.getLast?.bind text? = none) :
    PathShape text? (pieces ++ [piece]) := by
  refine ⟨h.toMerged.concat hpiece hlast, ?_⟩
  obtain ⟨text, htext, hslash⟩ := h.rooted
  cases pieces with
  | nil => contradiction
  | cons first pieces => exact ⟨text, htext, hslash⟩

/-- The last text may be exchanged for another one with the same first character. -/
theorem replaceLast {old new : α} (h : PathShape text? (pieces ++ [old])) {before after : String}
    (hold : text? old = some before) (hnew : text? new = some after)
    (hfirst : after.toList.head? = before.toList.head?) : PathShape text? (pieces ++ [new]) := by
  have hbefore : before ≠ "" := by
    rintro rfl
    exact h.nonempty old (by simp) hold
  have hafter : after ≠ "" := by
    rintro rfl
    have hempty : before.toList.head? = none := hfirst.symm
    exact hbefore (by simpa using hempty)
  refine ⟨h.toMerged.replaceLast (by simp [hold]) (by simpa [hnew] using hafter), ?_⟩
  obtain ⟨text, htext, hslash⟩ := h.rooted
  cases pieces with
  | nil =>
    obtain rfl : before = text := Option.some.inj (hold.symm.trans htext)
    exact ⟨after, hnew, hfirst.trans hslash⟩
  | cons first pieces => exact ⟨text, htext, hslash⟩

end PathShape

end TypedClient
