import TypedClient.Proofs.PathShape
import TypedClient.Proofs.TypeScript.Quotation
import TypedClient.TypeScript.Printer

/-!
# Reading template literals

A template literal is read from its text. A backslash makes the character behind
it literal, a bare backtick ends the literal, and a bare dollar sign with an
opening brace starts a substitution, which ends at the brace that closes it.
Inside a substitution, braces, quotations and templates nest. What was printed is
read back piece by piece, provided that no two texts of the template touch.
-/

namespace TypedClient.TypeScript

namespace Template

/-- What a template literal is read as. -/
inductive Part where
  | text (text : String)
  /-- The code of a substitution. -/
  | code (code : String)
  deriving DecidableEq, Repr

/-- What has been opened since a substitution began, and this itself. -/
inductive Opened where
  | brace
  | quote (mark : Char)
  | template
  deriving DecidableEq, Repr

def textPart (text : List Char) : List Part :=
  if text = [] then [] else [.text (String.ofList text)]

/-- What is open behind a character of code. -/
def openedAfter (c : Char) (outer : List Opened) : List Opened :=
  if c = '}' then outer
  else if c = '{' then .brace :: .brace :: outer
  else if c = '\x60' then .template :: .brace :: outer
  else if c = '"' ∨ c = '\x27' then .quote c :: .brace :: outer
  else .brace :: outer

/-- The parts up to the backtick that ends the literal, and what follows it. The pending
characters, in reverse, are text as long as nothing is open, and code otherwise. -/
def readFrom : List Opened → List Char → List Char → Option (List Part × List Char)
  | _, _, [] => none
  | [], pending, '\\' :: c :: rest => readFrom [] (c :: pending) rest
  | [], pending, '\x60' :: rest => some (textPart pending.reverse, rest)
  | [], pending, '$' :: '{' :: rest =>
    (readFrom [.brace] [] rest).map fun (parts, after) ↦ (textPart pending.reverse ++ parts, after)
  | [], pending, c :: rest => readFrom [] (c :: pending) rest
  | [.brace], pending, '}' :: rest =>
    (readFrom [] [] rest).map fun (parts, after) ↦
      (.code (String.ofList pending.reverse) :: parts, after)
  | .brace :: outer, pending, c :: rest => readFrom (openedAfter c outer) (c :: pending) rest
  | .quote mark :: outer, pending, '\\' :: c :: rest =>
    readFrom (.quote mark :: outer) (c :: '\\' :: pending) rest
  | .quote mark :: outer, pending, c :: rest =>
    readFrom (if c = mark then outer else .quote mark :: outer) (c :: pending) rest
  | .template :: outer, pending, '\\' :: c :: rest =>
    readFrom (.template :: outer) (c :: '\\' :: pending) rest
  | .template :: outer, pending, '$' :: '{' :: rest =>
    readFrom (.brace :: .template :: outer) ('{' :: '$' :: pending) rest
  | .template :: outer, pending, c :: rest =>
    readFrom (if c = '\x60' then outer else .template :: outer) (c :: pending) rest

/-- Reads a template literal behind its opening backtick, or from a place between two of its
parts. -/
def read (text : List Char) : Option (List Part × List Char) :=
  readFrom [] [] text

/-! ## Text -/

section

variable {pending rest : List Char}

theorem readFrom_escaped (c : Char) :
    readFrom [] pending ('\\' :: c :: rest) = readFrom [] (c :: pending) rest := by
  rw [readFrom]

theorem readFrom_end :
    readFrom [] pending ('\x60' :: rest) = some (textPart pending.reverse, rest) := by
  rw [readFrom]

theorem readFrom_open : readFrom [] pending ('$' :: '{' :: rest) =
    (readFrom [.brace] [] rest).map fun (parts, after) ↦
      (textPart pending.reverse ++ parts, after) := by
  rw [readFrom]

theorem readFrom_char {c : Char} (hslash : c ≠ '\\') (hend : c ≠ '\x60')
    (hopen : c = '$' → rest.head? ≠ some '{') :
    readFrom [] pending (c :: rest) = readFrom [] (c :: pending) rest := by
  rw [readFrom]
  · exact fun d after heq _ ↦ hslash heq
  · exact hend
  · exact fun after hdollar heq ↦ hopen hdollar (by rw [heq, List.head?_cons])

theorem head?_escapeTemplateChars {text : List Char} (h : text.head? ≠ some '{') :
    (escapeTemplateChars text).head? ≠ some '{' := by
  cases text with
  | nil => exact h
  | cons c text =>
    rw [escapeTemplateChars]
    split
    · simp
    · simpa using h

/-- Escaped text is read as itself, unless a brace follows that a dollar sign at its end would
open. -/
theorem readFrom_escapeTemplateChars (hrest : rest.head? ≠ some '{') (text : List Char) :
    readFrom [] pending (escapeTemplateChars text ++ rest) =
      readFrom [] (text.reverse ++ pending) rest := by
  induction text generalizing pending with
  | nil => rfl
  | cons c text ih =>
    rw [escapeTemplateChars, List.reverse_cons, List.append_assoc]
    split
    · rw [List.cons_append, List.cons_append, readFrom_escaped, ih]
      rfl
    · rename_i hplain
      obtain ⟨hslash, hend, hopen⟩ :
          c ≠ '\\' ∧ c ≠ '\x60' ∧ ¬ (c = '$' ∧ text.head? = some '{') := by
        simpa [not_or] using hplain
      have hnext (hdollar : c = '$') : (escapeTemplateChars text ++ rest).head? ≠ some '{' := by
        have hhead : (escapeTemplateChars text).head? ≠ some '{' :=
          head?_escapeTemplateChars fun h ↦ hopen ⟨hdollar, h⟩
        cases htext : escapeTemplateChars text with
        | nil => exact hrest
        | cons d after => simpa [htext] using hhead
      rw [List.cons_append, readFrom_char hslash hend hnext, ih]
      rfl

end

/-! ## Code -/

/-- Code that closes what it opens, wherever it stands in a substitution. -/
def Balanced (code : List Char) : Prop :=
  ∀ outer pending rest, readFrom (.brace :: outer) pending (code ++ rest) =
    readFrom (.brace :: outer) (code.reverse ++ pending) rest

/-- A character of code that neither opens nor closes anything. -/
def isInert (c : Char) : Bool :=
  c ∉ ['{', '}', '\x60', '"', '\x27']

namespace Balanced

variable {left right code : List Char}

theorem append (hleft : Balanced left) (hright : Balanced right) : Balanced (left ++ right) := by
  intro outer pending rest
  rw [List.append_assoc, hleft, hright, List.reverse_append, List.append_assoc]

theorem of_isInert (h : ∀ c ∈ code, isInert c = true) : Balanced code := by
  intro outer pending rest
  induction code generalizing pending with
  | nil => rfl
  | cons c code ih =>
    obtain ⟨hc, hcode⟩ := List.forall_mem_cons.1 h
    obtain ⟨hopen, hclose, htemplate, hdouble, hsingle⟩ :
        c ≠ '{' ∧ c ≠ '}' ∧ c ≠ '\x60' ∧ c ≠ '"' ∧ c ≠ '\x27' := by
      simpa [isInert] using hc
    have hopened : openedAfter c outer = .brace :: outer := by
      simp [openedAfter, hopen, hclose, htemplate, hdouble, hsingle]
    rw [List.cons_append, readFrom, hopened, ih hcode, List.reverse_cons, List.append_assoc]
    · rfl
    · exact fun _ heq ↦ hclose heq

/-- A substitution ends behind its code. -/
theorem readFrom_substitution (h : Balanced code) (pending rest : List Char) :
    readFrom [] pending ('$' :: '{' :: (code ++ '}' :: rest)) =
      (read rest).map fun (parts, after) ↦
        (textPart pending.reverse ++ .code (String.ofList code) :: parts, after) := by
  rw [readFrom_open, h, readFrom, read, Option.map_map]
  simp [Function.comp_def]

end Balanced

/-! ## Literals -/

def Part.ofPiece : TemplatePiece → Part
  | .text content => .text content
  | .substitution expr => .code expr.print

end Template

namespace TemplatePiece

def text? : TemplatePiece → Option String
  | text content => some content
  | substitution _ => none

end TemplatePiece

namespace Template

open TemplatePiece (text? printList)

theorem head?_printList {pieces : List TemplatePiece} (h : pieces.head?.bind text? = none)
    (after : List Char) :
    ((printList pieces).toList ++ '\x60' :: after).head? ≠ some '{' := by
  cases pieces with
  | nil => simp [printList]
  | cons piece pieces =>
    cases piece with
    | text text => contradiction
    | substitution expr => simp [printList, TemplatePiece.print]

/-- Printed pieces are read back behind text that is pending, which belongs to no text at their
front. -/
theorem readFrom_printList {pieces : List TemplatePiece} (hmerged : Merged text? pieces)
    (hcode : ∀ expr, .substitution expr ∈ pieces → Balanced expr.print.toList)
    (pending after : List Char) (hpending : pending ≠ [] → pieces.head?.bind text? = none) :
    readFrom [] pending ((printList pieces).toList ++ '\x60' :: after) =
      some (textPart pending.reverse ++ pieces.map Part.ofPiece, after) := by
  induction pieces generalizing pending with
  | nil => simpa [printList] using readFrom_end
  | cons piece pieces ih =>
    have hrest := ih hmerged.tail fun expr hexpr ↦ hcode expr (.tail _ hexpr)
    cases piece with
    | text text =>
      have hempty : pending = [] := by
        by_contra hne
        exact absurd (hpending hne) (by simp [text?])
      have hne : text.toList ≠ [] := by
        simpa [text?] using hmerged.nonempty _ (.head _)
      have hnext := hmerged.head_eq_none (by simp [text?])
      have hpart : textPart text.toList = [.text text] := by
        simp [textPart, hne]
      subst hempty
      rw [printList, TemplatePiece.print, escapeTemplate_eq, String.toList_append,
        String.toList_ofList, List.append_assoc,
        readFrom_escapeTemplateChars (head?_printList hnext after), List.append_nil,
        hrest _ fun _ ↦ hnext, List.reverse_reverse, hpart]
      rfl
    | substitution expr =>
      have hprint : (printList (.substitution expr :: pieces)).toList ++ '\x60' :: after =
          '$' :: '{' ::
            (expr.print.toList ++ '}' :: ((printList pieces).toList ++ '\x60' :: after)) := by
        simp [printList, TemplatePiece.print]
      rw [hprint, (hcode expr (.head _)).readFrom_substitution, read,
        hrest [] fun hne ↦ absurd rfl hne]
      simp [textPart, Part.ofPiece]

/-- A printed template literal is read back piece by piece, up to its end. -/
theorem read_printList {pieces : List TemplatePiece} (hmerged : Merged text? pieces)
    (hcode : ∀ expr, .substitution expr ∈ pieces → Balanced expr.print.toList)
    (after : List Char) :
    read ((printList pieces).toList ++ '\x60' :: after) =
      some (pieces.map Part.ofPiece, after) :=
  readFrom_printList hmerged hcode [] after fun hne ↦ absurd rfl hne

end Template

end TypedClient.TypeScript
