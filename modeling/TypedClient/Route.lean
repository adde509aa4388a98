import TypedClient.Text.Blank
import TypedClient.Text.Replace

/-!
# Route templates

A route is text with placeholders in braces: `{name}`, `{name:constraint}`,
`{name?}`, `{name=default}` and `{*name}`. A doubled brace stands for a brace
of the text, also inside a constraint, and the tokens `[controller]` and
`[action]` stand for the names of the owner and of the action. A placeholder
that never ends is text. The parts of a route always start with a slash.
-/

namespace TypedClient

inductive RoutePart where
  | literal (text : String)
  | placeholder (name : String) (optional catchAll : Bool)
  deriving DecidableEq, Repr

namespace Route

/-- A character of a route: standing for itself, or a brace written twice. -/
inductive Mark where
  | plain (c : Char)
  | doubled (c : Char)
  deriving DecidableEq, Repr

def Mark.char : Mark → Char
  | plain c => c
  | doubled c => c

/-- How the character was written. -/
def Mark.source : Mark → List Char
  | plain c => [c]
  | doubled c => [c, c]

def marks : List Char → List Mark
  | '{' :: '{' :: rest => .doubled '{' :: marks rest
  | '}' :: '}' :: rest => .doubled '}' :: marks rest
  | c :: rest => .plain c :: marks rest
  | [] => []

/-- The part of a text before a character, and whether the character occurs. -/
def cutAt (c : Char) (text : List Char) : List Char × Bool :=
  (text.takeWhile (· != c), text.contains c)

def dropStars : List Char → List Char × Bool
  | '*' :: '*' :: rest => (rest, true)
  | '*' :: rest => (rest, true)
  | text => (text, false)

def dropQuestionMark (text : List Char) : List Char × Bool :=
  if text.getLast? = some '?' then (text.dropLast, true) else (text, false)

/-- Reads what stands between the braces of a placeholder. -/
def placeholder (body : List Char) : RoutePart :=
  let (body, catchAll) := dropStars body
  let (body, marked) := dropQuestionMark body
  let (body, defaulted) := cutAt '=' body
  let (name, _) := cutAt ':' body
  .placeholder (String.ofList (Text.trimChars name)) (marked || defaulted) catchAll

def literalPart : List Char → List RoutePart
  | [] => []
  | text => [.literal (String.ofList text)]

/-- The parts of the remaining marks, after the pending text and, inside a placeholder, the
marks since its opening brace; both are kept in reverse. -/
def partsFrom (pending : List Char) : Option (List Mark) → List Mark → List RoutePart
  | none, [] => literalPart pending.reverse
  | some body, [] => literalPart (pending.reverse ++ '{' :: body.reverse.flatMap Mark.source)
  | none, .plain '{' :: rest => partsFrom pending (some []) rest
  | none, mark :: rest => partsFrom (mark.char :: pending) none rest
  | some body, .plain '}' :: rest =>
    literalPart pending.reverse ++
      placeholder (body.reverse.map Mark.char) :: partsFrom [] none rest
  | some body, mark :: rest => partsFrom pending (some (mark :: body)) rest

def controllerToken : String := "[controller]"

def actionToken : String := "[action]"

/-- The route without leading tildes and with the names of owner and action in place. -/
def expand (route controller action : String) : List Char :=
  let text := route.toList.dropWhile (· == '~')
  let text := Text.replaceChars controllerToken.toList controller.toList text
  Text.replaceChars actionToken.toList action.toList text

def partsOfText (text : List Char) : List RoutePart :=
  partsFrom (if text.head? = some '/' then [] else ['/']) none (marks text)

def parts (route controller action : String) : List RoutePart :=
  partsOfText (expand route controller action)

end Route

end TypedClient
