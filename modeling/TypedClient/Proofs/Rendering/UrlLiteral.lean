import TypedClient.Proofs.Callable.Path
import TypedClient.Proofs.TypeScript.Identifier
import TypedClient.Proofs.TypeScript.Template
import TypedClient.Rendering.Methods

/-!
# The literal of an address

A method writes its address as one template literal: the base address, the path
piece by piece, and the search query if there is one. The text of the literal says
exactly the path of its function, whatever characters the route contains.
-/

namespace TypedClient

open TypeScript (Expr Stmt TemplatePiece indentation line localName)
open TypeScript.Template (Balanced Part)

/-! ## Code in substitutions -/

namespace TypeScript

theorem Stmt.printList_append (level : Nat) (left right : List Stmt) :
    Stmt.printList level (left ++ right) =
      Stmt.printList level left ++ Stmt.printList level right := by
  induction left with
  | nil => simp [printList]
  | cons stmt left ih => rw [List.cons_append, printList, printList, ih, String.append_assoc]

end TypeScript

namespace TypeScript.Template

theorem isInert_of_isIdentChar {c : Char} (h : isIdentChar c = true) : isInert c = true := by
  have hmarks : isIdentChar '{' = false ∧ isIdentChar '}' = false ∧ isIdentChar '\x60' = false ∧
      isIdentChar '"' = false ∧ isIdentChar '\x27' = false := by decide
  have hne {mark : Char} (hmark : isIdentChar mark = false) : c ≠ mark := by
    rintro rfl
    rw [h] at hmark
    contradiction
  obtain ⟨hopen, hclose, htemplate, hdouble, hsingle⟩ := hmarks
  simp [isInert, hne hopen, hne hclose, hne htemplate, hne hdouble, hne hsingle]

/-- Code without braces, backticks and quotes. -/
theorem balanced_of_all (code : String) (h : code.toList.all isInert = true) :
    Balanced code.toList :=
  .of_isInert (List.all_eq_true.1 h)

theorem balanced_localName (name : String) : Balanced (localName name).toList :=
  .of_isInert fun c hc ↦ isInert_of_isIdentChar ((isIdentifier_localName name).chars c hc)

/-- A quotation without escapes. -/
theorem balanced_quotation {text : List Char} (hquote : '"' ∉ text) (hslash : '\\' ∉ text) :
    Balanced ('"' :: (text ++ ['"'])) := by
  have hinside (outer : List Opened) (pending rest : List Char) :
      readFrom (.quote '"' :: outer) pending (text ++ '"' :: rest) =
        readFrom outer ('"' :: (text.reverse ++ pending)) rest := by
    induction text generalizing pending with
    | nil =>
      rw [List.nil_append, readFrom, if_pos rfl]
      · rfl
      · simp
    | cons c text ih =>
      simp only [List.mem_cons, not_or] at hquote hslash
      rw [List.cons_append, readFrom, if_neg (Ne.symm hquote.1), ih hquote.2 hslash.2,
        List.reverse_cons, List.append_assoc]
      · rfl
      · exact fun _ _ heq _ ↦ hslash.1 heq.symm
  intro outer pending rest
  have hopened : openedAfter '"' outer = .quote '"' :: .brace :: outer := by
    simp [openedAfter]
  rw [List.cons_append, List.append_assoc, readFrom, hopened, List.singleton_append, hinside]
  · simp
  · simp

end TypeScript.Template

open TypeScript.Template (balanced_of_all balanced_localName balanced_quotation)

namespace Callable

/-- The code that stands for the argument of a path parameter. -/
def argumentCode (function : Callable) (name : String) : String :=
  if function.isOptional name then localName name ++ " ?? \"\"" else localName name

theorem balanced_argumentCode (function : Callable) (name : String) :
    Balanced (function.argumentCode name).toList := by
  unfold argumentCode
  split
  · have hempty : " ?? \"\"".toList = " ?? ".toList ++ ('"' :: ([] ++ ['"'])) := by decide
    rw [String.toList_append, hempty]
    exact (balanced_localName name).append
      ((balanced_of_all _ (by decide)).append (balanced_quotation (by simp) (by simp)))
  · exact balanced_localName name

theorem balanced_encodedSegment {value : String} (h : Balanced value.toList) (catchAll : Bool) :
    Balanced (encodedSegment value catchAll).print.toList := by
  cases catchAll with
  | false =>
    have hcode : (encodedSegment value false).print.toList =
        "encodeURIComponent(String(".toList ++ (value.toList ++ "))".toList) := by
      simp [encodedSegment, Expr.print]
    rw [hcode]
    exact (balanced_of_all _ (by decide)).append (h.append (balanced_of_all _ (by decide)))
  | true =>
    let slash : List Char := '"' :: (['/'] ++ ['"'])
    have hslash : Balanced slash := balanced_quotation (by simp) (by simp)
    have hcode : (encodedSegment value true).print.toList =
        "String(".toList ++ (value.toList ++ (").split(".toList ++ (slash ++
          (").map(encodeURIComponent).join(".toList ++ (slash ++ ")".toList))))) := by
      simp [encodedSegment, Expr.print, slash]
    have hjoin := hslash.append (balanced_of_all ")" (by decide))
    have hmap := (balanced_of_all ").map(encodeURIComponent).join(" (by decide)).append hjoin
    have hsplit := (balanced_of_all ").split(" (by decide)).append (hslash.append hmap)
    rw [hcode]
    exact (balanced_of_all _ (by decide)).append (h.append hsplit)

/-- The template inside the search query nests a substitution of its own. -/
theorem balanced_search : Balanced "search ? \x60?$\x7bsearch\x7d\x60 : \"\"".toList := by
  intro outer pending rest
  simp [TypeScript.Template.readFrom, TypeScript.Template.openedAfter]

/-! ## Pieces -/

/-- What a segment of the path is read as: its own text, or the code that encodes an argument. -/
def pathPart (function : Callable) : UriSegment → Part
  | .literal text => .text text
  | .parameter name catchAll => .code (encodedSegment (function.argumentCode name) catchAll).print

/-- What stands behind the path. -/
def searchPieces (function : Callable) : List TemplatePiece :=
  if function.uri.query = [] then [] else [searchPiece]

theorem text?_segmentPiece (function : Callable) (segment : UriSegment) :
    (function.segmentPiece segment).text? = segment.text? := by
  cases segment <;> rfl

theorem ofPiece_segmentPiece (function : Callable) (segment : UriSegment) :
    Part.ofPiece (function.segmentPiece segment) = function.pathPart segment := by
  cases segment <;> rfl

/-- The pieces of the literal behind the base address. -/
def pathPieces (function : Callable) : List TemplatePiece :=
  function.uri.segments.map function.segmentPiece ++ function.searchPieces

theorem print_urlTemplate (function : Callable) : function.urlTemplate.print =
    "\x60$\x7bthis.baseUrl\x7d" ++ (TemplatePiece.printList function.pathPieces ++ "\x60") := by
  have hpieces : function.urlTemplate =
      .template (.substitution (.member (.ident "this") "baseUrl") :: function.pathPieces) := by
    simp [urlTemplate, pathPieces, searchPieces]
  have hopening : "\x60$\x7bthis.baseUrl\x7d" =
      "\x60" ++ ("$\x7b" ++ ("this" ++ "." ++ "baseUrl") ++ "\x7d") := by decide
  rw [hpieces, Expr.print, TemplatePiece.printList, TemplatePiece.print, Expr.print, Expr.print,
    hopening]
  simp only [String.append_assoc]

theorem merged_pathPieces {function : Callable}
    (h : Merged UriSegment.text? function.uri.segments) :
    Merged TemplatePiece.text? function.pathPieces := by
  have hsegments : Merged TemplatePiece.text? (function.uri.segments.map function.segmentPiece) :=
    h.map function.text?_segmentPiece
  unfold pathPieces searchPieces
  split
  · simpa using hsegments
  · exact hsegments.concat (by simp [searchPiece, TemplatePiece.text?]) (.inl rfl)

theorem balanced_of_mem_pathPieces {function : Callable} {expr : Expr}
    (h : .substitution expr ∈ function.pathPieces) : Balanced expr.print.toList := by
  rw [pathPieces, List.mem_append, List.mem_map] at h
  rcases h with hpath | hsearch
  · obtain ⟨segment, -, hsegment⟩ := hpath
    cases segment with
    | literal text => contradiction
    | parameter name catchAll =>
      obtain rfl := TemplatePiece.substitution.inj hsegment
      exact balanced_encodedSegment (function.balanced_argumentCode name) catchAll
  · unfold searchPieces at hsearch
    split at hsearch
    · contradiction
    · obtain rfl := TemplatePiece.substitution.inj (List.mem_singleton.1 hsearch)
      simpa [Expr.print] using balanced_search

/-- Text is read, behind the base address, as the path segment by segment, then as the search
query if there is one, and the literal ends where the text does. -/
def ReadsPath (function : Callable) (text : String) : Prop :=
  ∀ after, TypeScript.Template.read (text.toList ++ after) =
    some (function.uri.segments.map function.pathPart ++ function.searchPieces.map Part.ofPiece,
      after)

theorem readsPath_pathPieces {function : Callable}
    (h : Merged UriSegment.text? function.uri.segments) :
    function.ReadsPath (TemplatePiece.printList function.pathPieces ++ "\x60") := by
  intro after
  have hparts : function.pathPieces.map Part.ofPiece =
      function.uri.segments.map function.pathPart ++ function.searchPieces.map Part.ofPiece := by
    simp [pathPieces, Function.comp_def, ofPiece_segmentPiece]
  have hread := TypeScript.Template.read_printList (merged_pathPieces h)
    (fun expr ↦ balanced_of_mem_pathPieces) after
  rw [hparts] at hread
  simpa using hread

/-! ## The literal in its method -/

/-- The line that declares the address stands between what declares the query and the rest. -/
def DeclaresUrl (function : Callable) (method : TypeScript.Method) : Prop :=
  ∃ rest, method.body =
      queryStatements function.uri.query ++ .declare .const "url" function.urlTemplate :: rest ∧
    ∀ level, ∃ heading closing, method.print level =
      heading ++ (Stmt.printList (level + 1) (queryStatements function.uri.query) ++
        (line (indentation (level + 1)) ("const url = " ++ function.urlTemplate.print ++ ";") ++
          Stmt.printList (level + 1) rest)) ++ closing

theorem declaresUrl_method (config : Config) (flavor : Flavor) (function : Callable) :
    function.DeclaresUrl (function.method config flavor) := by
  obtain ⟨rest, hbody⟩ : ∃ rest, (function.method config flavor).body =
      queryStatements function.uri.query ++
        .declare .const "url" function.urlTemplate :: rest := by
    simp only [method, statements, urlStatements, List.append_assoc, List.singleton_append]
    exact ⟨_, rfl⟩
  refine ⟨rest, hbody, fun level ↦ ?_⟩
  have hline : Stmt.print (level + 1) (.declare .const "url" function.urlTemplate) =
      line (indentation (level + 1)) ("const url = " ++ function.urlTemplate.print ++ ";") := by
    rw [Stmt.print]
    rfl
  rw [TypeScript.Method.print, hbody, TypeScript.Stmt.printList_append,
    TypeScript.Stmt.printList, hline]
  exact ⟨_, _, rfl⟩

end Callable

namespace Operation

variable {scope : Scope} {docs : DocSource} {operation : Operation}

/-- The method of a compiled operation writes its address as one literal, which says exactly the
path of the function: every text as it is, and one substitution for every parameter. -/
theorem url_says_path {function : Callable}
    (h : operation.compile scope docs = .ok (.compiled function)) (config : Config)
    (flavor : Flavor) :
    PathShape UriSegment.text? function.uri.segments ∧
      function.DeclaresUrl (function.method config flavor) ∧
        ∃ path, function.urlTemplate.print = "\x60$\x7bthis.baseUrl\x7d" ++ path ∧
          function.ReadsPath path := by
  have hshape := pathShape_of_compile h
  exact ⟨hshape, function.declaresUrl_method config flavor, _, function.print_urlTemplate,
    Callable.readsPath_pathPieces hshape.toMerged⟩

/-! ## A path of marks -/

def quotedItem : Operation :=
  { name := "Find"
    container := "Shop.ItemsController"
    verb := .get
    route := "a\\\x60$\x7b\x7bb$\x7bid\x7d$/\\"
    parameters := [{ name := "id", type := .string, source := .path }] }

def quotedItemFunction : Callable :=
  { name := "Find"
    sourceName := "Find"
    verb := .get
    params :=
      [{ name := "id", type := .scalar .string, token := "String", optional := false,
         role := .path }]
    returns := .void
    strategy := .nothing
    uri :=
      { segments := [.literal "/a\\\x60$\x7bb$", .parameter "id" false, .literal "$/\\"] }
    body := none
    headers := []
    doc := none }

theorem compile_quotedItem :
    quotedItem.compile { registry := {}, config := {} } ({} : Docs) =
      .ok (.compiled quotedItemFunction) :=
  rfl

theorem url_says_path_quotedItem :
    PathShape UriSegment.text? quotedItemFunction.uri.segments ∧
      ∃ path, quotedItemFunction.urlTemplate.print = "\x60$\x7bthis.baseUrl\x7d" ++ path ∧
        TypeScript.Template.read path.toList =
          some ([.text "/a\\\x60$\x7bb$", .code "encodeURIComponent(String(id))", .text "$/\\"],
            []) := by
  obtain ⟨hshape, -, path, hprint, hreads⟩ := url_says_path compile_quotedItem {} .fetch
  have hcode : (Callable.encodedSegment (quotedItemFunction.argumentCode "id") false).print =
      "encodeURIComponent(String(id))" := by decide
  have hread := hreads []
  rw [List.append_nil] at hread
  refine ⟨hshape, path, hprint, ?_⟩
  rw [hread, ← hcode]
  rfl

end Operation

end TypedClient
