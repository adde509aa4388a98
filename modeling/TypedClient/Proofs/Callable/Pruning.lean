import TypedClient.Proofs.Callable.Gaps

/-!
# Routes without dropped placeholders

An optional placeholder that no parameter fills can be taken out of the text of a route,
together with the slash before it. The operation compiles with the shorter route as well, to
a function that differs at most in its path, and the path is the same unless a slash is kept
that should have gone with its placeholder.
-/

namespace TypedClient

namespace Binding

open Route (Outline TextMark Mark)

/-- The part is an optional placeholder that no slot accepts. -/
def isDropped (slots : List Slot) : RoutePart → Bool
  | .placeholder name true _ => (claim? name slots).isNone
  | _ => false

def slotsAfter (slots : List Slot) : RoutePart → List Slot
  | .literal _ => slots
  | .placeholder name _ _ => ((claim? name slots).map Prod.snd).getD slots

def dropSlashMark (pending : List TextMark) : List TextMark :=
  if pending.getLast?.map (·.mark.char) = some '/' then pending.dropLast else pending

/-- Takes the dropped placeholders out from left to right, each with the slash that is then before
it. The text since the last placeholder that stays is pending. -/
def pruneFrom (pending : List TextMark) (slots : List Slot) : Outline → Outline
  | .done => Outline.done.withText pending
  | .unclosed body => (Outline.unclosed body).withText pending
  | .text mark rest => pruneFrom (pending ++ [mark]) slots rest
  | .placeholder body rest =>
    if isDropped slots body.part then pruneFrom (dropSlashMark pending) slots rest
    else
      (Outline.placeholder body (pruneFrom [] (slotsAfter slots body.part) rest)).withText pending

/-- The text of a route without its dropped placeholders. -/
def prune (slots : List Slot) (text : List Char) : List Char :=
  (pruneFrom [] slots (.ofText text)).source

/-! ## Pruning closes the gaps -/

theorem map_dropSlashMark (pending : List TextMark) :
    (dropSlashMark pending).map (·.mark.char) = dropSlash (pending.map (·.mark.char)) := by
  rw [dropSlashMark, dropSlash, List.getLast?_map]
  split
  · exact List.map_dropLast
  · rfl

theorem resolve_withText (slots : List Slot) (pending : List TextMark) (outline : Outline) :
    resolve slots (outline.withText pending).parts =
      (resolve slots outline.parts).after ((pending.map (·.mark.char)).map .char) := by
  induction pending with
  | nil => rfl
  | cons mark pending ih =>
    have hparts : (outline.withText (mark :: pending)).parts =
        .literal (String.ofList [mark.mark.char]) :: (outline.withText pending).parts := rfl
    rw [hparts, resolve, ih]
    simp

/-- Taking a placeholder out of the text closes its gap. -/
theorem resolve_pruneFrom (pending : List TextMark) (slots : List Slot) (outline : Outline) :
    resolve slots (pruneFrom pending slots outline).parts =
      { pieces := closeUp dropSlash (pending.map (·.mark.char))
          (resolve slots outline.parts).pieces
        left := (resolve slots outline.parts).left } := by
  induction outline generalizing pending slots with
  | done => simp [pruneFrom, resolve_withText, Outline.parts, resolve, closeUp, Resolved.after]
  | unclosed body =>
    have hclosed := closeUp_chars dropSlash (pending.map (·.mark.char))
      ('{' :: body.marks.flatMap Mark.source)
    simp only [pruneFrom, resolve_withText, Outline.parts, resolve, Resolved.after,
      String.toList_ofList, List.append_nil]
    rw [hclosed, List.map_append]
  | text mark rest ih => simp [pruneFrom, ih, Outline.parts, resolve, closeUp, Resolved.after]
  | placeholder body rest ih =>
    obtain ⟨name, optional, catchAll, hpart⟩ := body.exists_part_eq
    rw [pruneFrom, Outline.parts, hpart]
    cases hclaim : claim? name slots with
    | some taken =>
      obtain ⟨parameter, left⟩ := taken
      have hstays : isDropped slots (.placeholder name optional catchAll) = false := by
        cases optional <;> simp [isDropped, hclaim]
      have hafter : slotsAfter slots (.placeholder name optional catchAll) = left := by
        simp [slotsAfter, hclaim]
      rw [hstays, hafter, resolve_of_claim? hclaim, if_neg Bool.false_ne_true, resolve_withText,
        Outline.parts, hpart, resolve_of_claim? hclaim, ih]
      simp [closeUp, Resolved.after]
    | none =>
      cases optional with
      | true =>
        have hdropped : isDropped slots (.placeholder name true catchAll) = true := by
          simp [isDropped, hclaim]
        rw [hdropped, if_pos rfl, resolve_of_unclaimed hclaim, if_pos rfl, ih, map_dropSlashMark]
        rfl
      | false =>
        have hstays : isDropped slots (.placeholder name false catchAll) = false := rfl
        rw [hstays, if_neg Bool.false_ne_true, resolve_withText, Outline.parts, hpart,
          resolve_of_unclaimed hclaim, resolve_of_unclaimed hclaim]
        simp [closeUp, Resolved.after]

/-! ## Reading a pruned route -/

theorem prefix_dropSlashMark (pending : List TextMark) : dropSlashMark pending <+: pending := by
  rw [dropSlashMark]
  split
  · exact List.dropLast_prefix pending
  · exact List.prefix_rfl

theorem sublist_marks_pruneFrom (pending : List TextMark) (slots : List Slot)
    (outline : Outline) :
    (pruneFrom pending slots outline).marks.Sublist
      (pending.map TextMark.mark ++ outline.marks) := by
  induction outline generalizing pending slots with
  | done => rw [pruneFrom, Outline.marks_withText]
  | unclosed body => rw [pruneFrom, Outline.marks_withText]
  | text mark rest ih => simpa [pruneFrom, Outline.marks] using ih (pending ++ [mark]) slots
  | placeholder body rest ih =>
    rw [pruneFrom, Outline.marks]
    split
    · have hbehind : rest.marks.Sublist (.plain '{' :: (body.marks ++ .plain '}' :: rest.marks)) :=
        ((List.sublist_cons_self _ _).trans (List.sublist_append_right _ _)).trans
          (List.sublist_cons_self _ _)
      exact (ih _ slots).trans (((prefix_dropSlashMark pending).sublist.map _).append hbehind)
    · rw [Outline.marks_withText, Outline.marks]
      refine (List.Sublist.refl _).append (.cons_cons _ ?_)
      exact (List.Sublist.refl _).append (.cons_cons _ (by simpa using ih [] _))

/-- Marks may be taken out up to the end of a placeholder, since what follows it never continues
a closing brace. -/
theorem isChain_of_placeholder {front front' body rest : List Mark}
    (h : (front ++ .plain '{' :: (body ++ .plain '}' :: rest)).IsChain Mark.Apart)
    (hleft : front' <+: front) (hopen : .plain '{' ∉ front) :
    (front' ++ rest).IsChain Mark.Apart := by
  obtain ⟨hfront, hplaceholder, -⟩ := List.isChain_append.1 h
  have hclose : (.plain '}' :: rest).IsChain Mark.Apart :=
    hplaceholder.suffix ⟨.plain '{' :: body, rfl⟩
  obtain ⟨hnext, hrest⟩ := List.isChain_cons.1 hclose
  have hkept : front'.IsChain Mark.Apart := List.IsChain.prefix hfront hleft
  refine hkept.append hrest fun last hlast next hmem brace hplain hbrace ↦ ?_
  rcases hbrace with rfl | rfl
  · have hlast : .plain '{' ∈ front' := hplain ▸ List.mem_of_getLast? hlast
    exact absurd (hleft.subset hlast) hopen
  · exact hnext next hmem '}' rfl (.inr rfl)

/-- Pruning leaves no marks together that could be taken for a doubled brace. In front stands the
brace that closes the placeholder before, if there is one. -/
theorem isChain_pruneFrom {front : List Mark} (hfront : .plain '{' ∉ front)
    (pending : List TextMark) (slots : List Slot) {outline : Outline}
    (h : (front ++ (pending.map TextMark.mark ++ outline.marks)).IsChain Mark.Apart) :
    (front ++ (pruneFrom pending slots outline).marks).IsChain Mark.Apart := by
  induction outline generalizing front pending slots with
  | done => rwa [pruneFrom, Outline.marks_withText]
  | unclosed body => rwa [pruneFrom, Outline.marks_withText]
  | text mark rest ih =>
    exact ih hfront _ _ (by simpa [Outline.marks] using h)
  | placeholder body rest ih =>
    have hpending : .plain '{' ∉ pending.map TextMark.mark := by
      intro hmem
      obtain ⟨mark, -, hmark⟩ := List.mem_map.1 hmem
      exact mark.ne_open hmark
    rw [Outline.marks, ← List.append_assoc] at h
    rw [pruneFrom]
    split
    -- the placeholder goes, and the next mark moves up to the text before it
    · refine ih hfront _ _ ?_
      rw [← List.append_assoc]
      refine isChain_of_placeholder h ?_ (by simp [hfront, hpending])
      exact List.prefix_append_right_inj _ |>.2 ((prefix_dropSlashMark pending).map _)
    · have hclose : ([Mark.plain '}'] ++ rest.marks).IsChain Mark.Apart :=
        h.suffix ⟨front ++ pending.map TextMark.mark ++ Mark.plain '{' :: body.marks, by simp⟩
      have hlater : ([Mark.plain '}'] ++
          (pruneFrom [] (slotsAfter slots body.part) rest).marks).IsChain Mark.Apart :=
        ih (by simp) [] _ (by simpa using hclose)
      have hbefore : (front ++ pending.map TextMark.mark ++ Mark.plain '{' :: body.marks ++
          [Mark.plain '}']).IsChain Mark.Apart :=
        List.IsChain.prefix h ⟨rest.marks, by simp⟩
      have hall := hbefore.append_overlap hlater (List.cons_ne_nil _ _)
      rw [Outline.marks_withText, Outline.marks]
      simpa using hall

theorem ofText_prune (slots : List Slot) (text : List Char) :
    Outline.ofText (prune slots text) = pruneFrom [] slots (.ofText text) := by
  have hlegible := Route.legible_marks text
  rw [← Outline.marks_ofText] at hlegible
  have hsub := sublist_marks_pruneFrom [] slots (Outline.ofText text)
  have hchain : ([] ++ (pruneFrom [] slots (Outline.ofText text)).marks).IsChain Mark.Apart :=
    isChain_pruneFrom List.not_mem_nil [] slots hlegible.apart
  exact Outline.ofText_source
    ⟨fun c hc ↦ hlegible.brace_of_doubled c (hsub.subset hc), hchain⟩

theorem resolve_prune (slots : List Slot) (text : List Char) :
    resolve slots (Route.partsOfText (prune slots text)) =
      { pieces := rooted (closeUp dropSlash [] (resolve slots (Outline.ofText text).parts).pieces)
        left := (resolve slots (Outline.ofText text).parts).left } := by
  rw [resolve_partsOfText, ofText_prune, resolve_pruneFrom]
  rfl

/-- Text without slashes next to each other has no such pieces. -/
theorem single_pieces {outline : Outline} (h : Single '/' outline.source) (slots : List Slot) :
    Single (.char '/') (resolve slots outline.parts).pieces := by
  induction outline generalizing slots with
  | done => exact .nil
  | unclosed body =>
    have hsource : (Outline.unclosed body).source = '{' :: body.marks.flatMap Mark.source := rfl
    rw [hsource, ← single_chars_iff] at h
    simpa [Outline.parts, resolve] using h
  | text mark rest ih =>
    have hsource : (Outline.text mark rest).source = mark.mark.source ++ rest.source := rfl
    rw [hsource] at h
    obtain ⟨-, hrest, hbetween⟩ := List.isChain_append.1 h
    have hpieces : (resolve slots (Outline.text mark rest).parts).pieces =
        .char mark.mark.char :: (resolve slots rest.parts).pieces := by
      simp [Outline.parts, resolve]
    rw [hpieces]
    refine List.IsChain.cons (ih hrest slots) fun next hnext hslash heq ↦ ?_
    have hhead := (head?_resolve_parts slots rest).1 (heq ▸ hnext)
    have hlast : mark.mark.source.getLast? = some '/' := by
      rw [← Piece.char.inj hslash]
      cases mark.mark <;> rfl
    exact hbetween '/' hlast '/' hhead rfl rfl
  | placeholder body rest ih =>
    have hrest : Single '/' rest.source :=
      List.IsChain.suffix h ⟨'{' :: (body.marks.flatMap Mark.source ++ ['}']), by
        simp [Outline.source, Outline.marks, Mark.source]⟩
    obtain ⟨name, optional, catchAll, hpart⟩ := body.exists_part_eq
    rw [Outline.parts, hpart, resolve]
    split
    · exact (Single.cons_iff (by simp)).2 (ih hrest _)
    · split
      · exact (Single.cons_iff (by simp)).2 (ih hrest _)
      · exact .nil

end Binding

namespace Operation

open Binding

variable {scope : Scope} {docs : DocSource} {operation : Operation}

def slots (operation : Operation) : List Slot :=
  operation.parameters.map slotOf

/-- The text of the route, with the names of owner and action in place. -/
def routeText (operation : Operation) : List Char :=
  Route.expand operation.route (Name.containerBase operation.container) operation.name

/-- The text of the route without its optional placeholders that no parameter fills. -/
def prunedText (operation : Operation) : List Char :=
  prune operation.slots operation.routeText

def resolved (operation : Operation) : Resolved :=
  resolve operation.slots (Route.Outline.ofText operation.routeText).parts

/-- A slash is one too many in the path, which opens with one that the route may leave out. -/
def keepsSlash (operation : Operation) : Bool :=
  Binding.keepsSlash true (operation.resolved.pieces.head? != some (.char '/')) []
    operation.resolved.pieces

/-- The path that filling the route comes to. -/
def filledPath (operation : Operation) : List UriSegment :=
  segmentsFrom [] (closeUp trimText [] (rooted operation.resolved.pieces))

/-- The path of the pruned route. -/
def prunedPath (operation : Operation) : List UriSegment :=
  segmentsFrom [] (rooted (closeUp dropSlash [] operation.resolved.pieces))

/-- The address and the roles that a filled route comes to. -/
def boundOf (path : List UriSegment) (slots : List Slot) : Bound where
  uri := { segments := path, query := slots.filterMap Slot.query? }
  parameters := slots.map fun slot ↦ (slot.parameter, slot.finalRole)

theorem bind_eq_ok_iff_of_resolve {result : Resolved}
    (h : resolve operation.slots operation.routeParts = result) {bound : Bound} :
    operation.bind = .ok bound ↔ ∃ left, result.left = .ok left ∧
      bound = boundOf (segmentsFrom [] (closeUp trimText [] result.pieces)) left := by
  have hnonempty : ∀ part ∈ operation.routeParts, part.text? ≠ some "" := by
    rw [routeParts]
    exact (Route.pathShape_parts _ _ _).nonempty
  have hnil : ([] : List UriSegment).getLast?.bind UriSegment.text? = none := rfl
  have hfill := fillFrom_eq_resolve hnil [] operation.slots hnonempty
  simp only [literalSegment, List.nil_append, h] at hfill
  rw [bind, ← slots, hfill]
  cases result.left with
  | error name => simp [Except.map]
  | ok left => simp [Except.map, boundOf, eq_comm]

theorem bind_eq_ok_iff {bound : Bound} : operation.bind = .ok bound ↔
    ∃ left, operation.resolved.left = .ok left ∧ bound = boundOf operation.filledPath left := by
  have hresolve : resolve operation.slots operation.routeParts =
      { pieces := rooted operation.resolved.pieces, left := operation.resolved.left } :=
    resolve_partsOfText operation.slots operation.routeText
  rw [bind_eq_ok_iff_of_resolve hresolve, filledPath]

/-- With the pruned route, no gap is left to close. -/
theorem bind_of_pruned {route : String}
    (h : Route.expand route (Name.containerBase operation.container) operation.name =
      operation.prunedText) {left : List Slot} (hleft : operation.resolved.left = .ok left) :
    ({ operation with route } : Operation).bind = .ok (boundOf operation.prunedPath left) := by
  have hparts : ({ operation with route } : Operation).routeParts =
      Route.partsOfText operation.prunedText := by
    rw [routeParts, Route.parts, h]
  have hresolve : resolve ({ operation with route } : Operation).slots
      ({ operation with route } : Operation).routeParts =
        { pieces := rooted (closeUp dropSlash [] operation.resolved.pieces)
          left := operation.resolved.left } := by
    rw [hparts, prunedText, resolved, ← resolve_prune]
    rfl
  have hgapless := (gapless_closeUp dropSlash [] operation.resolved.pieces).rooted
  rw [bind_eq_ok_iff_of_resolve hresolve, hgapless.closeUp_eq, List.map_nil, List.nil_append]
  exact ⟨left, hleft, rfl⟩

/-- An operation that is bound to the same slots with another route compiles to the same function
with another path. -/
theorem compile_of_bind {route : String} {path path' : List UriSegment} {left : List Slot}
    (hverb : operation.verb.isSupported = true) (hcheck : operation.checkBindings = .ok ())
    (hbind : ({ operation with route } : Operation).bind = .ok (boundOf path' left)) :
    ({ operation with route } : Operation).compile scope docs =
      .ok (.compiled { operation.function scope docs (boundOf path left) with
        uri := { (boundOf path left).uri with segments := path' } }) :=
  compile_eq_compiled_iff.2 ⟨hverb, hcheck, _, hbind, rfl⟩

theorem filledPath_eq_prunedPath_iff (operation : Operation) :
    operation.filledPath = operation.prunedPath ↔ operation.keepsSlash = false := by
  let pieces := operation.resolved.pieces
  let kept := pieces.head? != some (.char '/')
  have hkept : closeUp trimText [] (rooted pieces) = closeUp trimText (withKept kept []) pieces := by
    by_cases hslash : pieces.head? = some (.char '/')
    · simp [rooted, withKept, kept, hslash]
    · simp [rooted, withKept, kept, hslash, closeUp]
  calc operation.filledPath = operation.prunedPath
    _ ↔ closeUp trimText [] (rooted pieces) = rooted (closeUp dropSlash [] pieces) :=
      segmentsFrom_inj (gapless_closeUp _ _ _) (gapless_closeUp _ _ _).rooted
    _ ↔ closeUp trimText (withKept kept []) pieces =
          openingPieces true (closeUp dropSlash [] pieces) := by
      rw [hkept, openingPieces, if_pos rfl]
    _ ↔ operation.keepsSlash = false :=
      closeUp_withKept_eq_iff fun _ hhead ↦ by simpa [kept] using hhead

/-- If no slashes stand together in the route, none do in the pruned path, and a gap at the end
leaves no slash there. -/
theorem slashes_of_prunedPath (h : ¬ "//".toList <:+: operation.routeText) :
    (∀ text, .literal text ∈ operation.prunedPath → ¬ "//".toList <:+: text.toList) ∧
      (operation.resolved.pieces.getLast? = some .gap → operation.prunedPath = [.literal "/"] ∨
        ∀ text, operation.prunedPath.getLast? = some (.literal text) →
          text.toList.getLast? ≠ some '/') := by
  have hsource : Single '/' (Route.Outline.ofText operation.routeText).source := by
    rw [Route.Outline.source_ofText]
    exact Single.iff_not_infix.2 h
  have hpieces : Single (.char '/') operation.resolved.pieces := single_pieces hsource _
  have hgapless : Gapless (closeUp dropSlash [] operation.resolved.pieces) := gapless_closeUp _ _ _
  have hclosed : Single (.char '/') (closeUp dropSlash [] operation.resolved.pieces) :=
    single_closeUp hpieces
  constructor
  · intro text htext
    exact Single.iff_not_infix.1
      (single_of_mem_segmentsFrom hgapless.rooted (single_rooted hclosed) htext)
  · intro hgap
    obtain ⟨front, hfront⟩ := List.getLast?_eq_some_iff.1 hgap
    rw [hfront] at hpieces
    have hlast : (closeUp dropSlash [] operation.resolved.pieces).getLast? ≠ some (.char '/') := by
      rw [hfront]
      exact getLast?_closeUp_gap hpieces
    rw [prunedPath]
    generalize closeUp dropSlash [] operation.resolved.pieces = closed at hgapless hlast
    cases closed with
    | nil => exact .inl rfl
    | cons piece rest =>
      refine .inr fun text ↦ getLast?_of_getLast?_segmentsFrom hgapless.rooted ?_
      rw [rooted]
      split
      · exact hlast
      · rwa [List.getLast?_cons_cons]

/-- A compiled operation compiles without its dropped placeholders as well, to a function that
differs at most in its path. The path is the same exactly if no slash is kept that is one too
many. -/
theorem path_of_pruned {function : Callable}
    (h : operation.compile scope docs = .ok (.compiled function)) {route : String}
    (hroute : Route.expand route (Name.containerBase operation.container) operation.name =
      operation.prunedText) :
    ∃ path, ({ operation with route } : Operation).compile scope docs =
        .ok (.compiled { function with uri := { function.uri with segments := path } }) ∧
      (function.uri.segments = path ↔ operation.keepsSlash = false) ∧
      (¬ "//".toList <:+: operation.routeText →
        (∀ text, .literal text ∈ path → ¬ "//".toList <:+: text.toList) ∧
        (operation.resolved.pieces.getLast? = some .gap → path = [.literal "/"] ∨
          ∀ text, path.getLast? = some (.literal text) → text.toList.getLast? ≠ some '/')) := by
  obtain ⟨hverb, hcheck, bound, hbind, rfl⟩ := compile_eq_compiled_iff.1 h
  obtain ⟨left, hleft, rfl⟩ := bind_eq_ok_iff.1 hbind
  exact ⟨operation.prunedPath, compile_of_bind hverb hcheck (bind_of_pruned hroute hleft),
    filledPath_eq_prunedPath_iff operation, slashes_of_prunedPath⟩

/-- Only one of the placeholders has a parameter. -/
def pagedItem : Operation :=
  { name := "Get"
    container := "Shop.ItemsController"
    verb := .get
    route := "[controller]/\x7barea?\x7d/\x7bid\x7d/pages/\x7bpage?\x7d"
    parameters := [{ name := "id", type := .string }] }

def pagedItemFunction : Callable :=
  { name := "Get"
    sourceName := "Get"
    verb := .get
    params :=
      [{ name := "id", type := .scalar .string, token := "String", optional := false,
         role := .path }]
    returns := .void
    strategy := .nothing
    uri := { segments := [.literal "/Items/", .parameter "id" false, .literal "/pages"] }
    body := none
    headers := []
    doc := none }

theorem compile_pagedItem :
    pagedItem.compile { registry := {}, config := {} } ({} : Docs) =
      .ok (.compiled pagedItemFunction) :=
  rfl

theorem path_of_pruned_pagedItem :
    ({ pagedItem with route := "Items/\x7bid\x7d/pages" } : Operation).compile
        { registry := {}, config := {} } ({} : Docs) = .ok (.compiled pagedItemFunction) ∧
      pagedItem.resolved.pieces.getLast? = some .gap := by
  have hroute : Route.expand "Items/\x7bid\x7d/pages" (Name.containerBase pagedItem.container)
      pagedItem.name = pagedItem.prunedText := by decide +kernel
  obtain ⟨path, hcompile, hpath, -⟩ := path_of_pruned compile_pagedItem hroute
  obtain rfl := hpath.2 (by decide +kernel)
  exact ⟨hcompile, by decide +kernel⟩

/-- The slash before the placeholder without a parameter is all the text behind the other one. -/
def tailedItem : Operation :=
  { pagedItem with route := "[controller]/\x7bid\x7d/\x7btail?\x7d" }

/-- The path of a tailed item ends in a slash, which goes when its route is pruned. -/
theorem not_forall_path_of_pruned :
    ¬ ∀ (operation : Operation) (route : String) (scope : Scope) (docs : DocSource)
        (function pruned : Callable),
      operation.compile scope docs = .ok (.compiled function) →
      Route.expand route (Name.containerBase operation.container) operation.name =
        operation.prunedText →
      ({ operation with route } : Operation).compile scope docs = .ok (.compiled pruned) →
      function.uri.segments = pruned.uri.segments := by
  intro h
  have hpath := h tailedItem "Items/\x7bid\x7d" { registry := {}, config := {} }
    ({} : Docs) _ _ rfl (by decide +kernel) rfl
  contradiction

end Operation

end TypedClient
