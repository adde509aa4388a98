import TypedClient.Text.Replace
import TypedClient.Text.Uppercase

/-!
# Qualified names

Names of the source system are dotted paths such as `Shop.Models.Page`. A
backtick and digits after a name count its type parameters, and a plus sign
separates a nested type from its owner. The client sees none of these marks: it
uses the short name, with the count removed and the plus sign turned into an
underscore.
-/

namespace TypedClient.Name

/-- Drops every backtick together with the digits right after it; `counting` holds right
after a backtick and its digits. -/
def stripArityFrom : Bool → List Char → List Char
  | _, [] => []
  | counting, c :: rest =>
    if c = '\x60' then stripArityFrom true rest
    else if counting && c.isDigit then stripArityFrom true rest
    else c :: stripArityFrom false rest

def stripArityChars (name : List Char) : List Char :=
  stripArityFrom false name

def stripArity (name : String) : String :=
  String.ofList (stripArityChars name.toList)

/-- The parts of a path before and after its last dot. -/
def splitAtLastDot? : List Char → Option (List Char × List Char)
  | [] => none
  | c :: rest =>
    match splitAtLastDot? rest with
    | some (before, after) => some (c :: before, after)
    | none => if c = '.' then some ([], rest) else none

def namespaceChars (qualified : List Char) : List Char :=
  match splitAtLastDot? qualified with
  | some (before, _) => before
  | none => []

/-- The part of a qualified name before its last dot; a bare name lies in no namespace. -/
def namespaceOf (qualified : String) : String :=
  String.ofList (namespaceChars qualified.toList)

/-- The name inside its namespace. A name that does not lie in `space` loses everything up
to its last dot. -/
def localChars (qualified space : List Char) : List Char :=
  let tail := match splitAtLastDot? qualified with
    | some (_, after) => after
    | none => qualified
  if space = [] then tail else (Text.dropLead? (space ++ ['.']) qualified).getD tail

def flattenNesting (name : List Char) : List Char :=
  name.map fun c => if c = '+' then '_' else c

def shortChars (qualified space : List Char) : List Char :=
  flattenNesting (stripArityChars (localChars qualified space))

def short (qualified space : String) : String :=
  String.ofList (shortChars qualified.toList space.toList)

def isWordBreak (c : Char) : Bool :=
  c == '_' || c == '-' || c == ' ' || c == '.'

/-- Drops word breaks and capitalises what follows them; `fresh` holds at the start of a word. -/
def titleFrom : Bool → List Char → List Char
  | _, [] => []
  | fresh, c :: rest =>
    if isWordBreak c then titleFrom true rest
    else if fresh then Text.uppercase c ++ titleFrom false rest
    else c :: titleFrom false rest

def titleChars (name : List Char) : List Char :=
  titleFrom true name

def titleCase (name : String) : String :=
  String.ofList (titleChars name.toList)

def controllerEnding : List Char := "Controller".toList

def dropEnding? (ending name : List Char) : Option (List Char) :=
  (Text.dropLead? ending.reverse name.reverse).map List.reverse

/-- The short name of a controller without the ending `Controller`, unless nothing else
would be left of it. -/
def containerBase (container : String) : String :=
  let shortened := shortChars container.toList (namespaceChars container.toList)
  match dropEnding? controllerEnding shortened with
  | some (c :: rest) => String.ofList (c :: rest)
  | _ => String.ofList shortened

theorem stripArityFrom_eq_self {name : List Char} (h : '\x60' ∉ name) :
    stripArityFrom false name = name := by
  induction name with
  | nil => rfl
  | cons c rest ih =>
    simp only [List.mem_cons, not_or] at h
    simp [stripArityFrom, Ne.symm h.1, ih h.2]

theorem eq_append_of_splitAtLastDot? {path before after : List Char}
    (h : splitAtLastDot? path = some (before, after)) : path = before ++ '.' :: after := by
  induction path generalizing before with
  | nil => simp [splitAtLastDot?] at h
  | cons c rest ih =>
    rw [splitAtLastDot?] at h
    cases hrest : splitAtLastDot? rest with
    | some parts =>
      obtain ⟨inner, tail⟩ := parts
      simp only [hrest, Option.some.injEq, Prod.mk.injEq] at h
      obtain ⟨rfl, rfl⟩ := h
      simp [ih hrest]
    | none =>
      simp only [hrest] at h
      split at h
      · simp_all
      · simp at h

end TypedClient.Name
