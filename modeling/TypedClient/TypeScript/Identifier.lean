import TypedClient.Name
import TypedClient.Text.Ascii

/-!
# Identifiers

Names of the source system become identifiers of ASCII letters, digits,
underscores and dollar signs. Other characters separate words, the words are
joined in camel case, and a name that would start with a digit or be a reserved
word gets an underscore in front. A property key that is no identifier is
written in quotes.
-/

namespace TypedClient.TypeScript

def reservedWords : List String := [
  "break", "case", "catch", "class", "const", "continue", "debugger", "default", "delete", "do",
  "else", "enum", "export", "extends", "false", "finally", "for", "function", "if", "import",
  "in", "instanceof", "new", "null", "return", "super", "switch", "this", "throw", "true", "try",
  "typeof", "var", "void", "while", "with", "yield", "let", "static", "implements", "interface",
  "package", "private", "protected", "public", "await", "async"]

def isReserved (name : String) : Bool :=
  name ∈ reservedWords

def isIdentChar (c : Char) : Bool :=
  Text.isAsciiAlphanumeric c || c == '_' || c == '$'

def isIdentStart (c : Char) : Bool :=
  Text.isAsciiLetter c || c == '_' || c == '$'

def needsQuoting (name : String) : Bool :=
  match name.toList with
  | [] => true
  | first :: rest => !isIdentStart first || !rest.all isIdentChar

/-- Lower-cases the capitals in front, except the one that starts the next word. -/
def camelChars (name : List Char) : List Char :=
  let capitals := name.takeWhile Char.isUpper
  let lowered :=
    if capitals.length = name.length ∨ capitals.length ≤ 1 then capitals.length
    else capitals.length - 1
  (name.take lowered).map Char.toLower ++ name.drop lowered

def camelCase (name : String) : String :=
  String.ofList (camelChars name.toList)

/-- The longest runs of identifier characters; `pending` is the run under way, in reverse. -/
def wordsFrom (pending : List Char) : List Char → List (List Char)
  | [] => if pending = [] then [] else [pending.reverse]
  | c :: rest =>
    if isIdentChar c then wordsFrom (c :: pending) rest
    else if pending = [] then wordsFrom [] rest
    else pending.reverse :: wordsFrom [] rest

/-- The words of a name in one piece, all but the first in title case. -/
def joinWords : List (List Char) → List Char
  | [] => []
  | first :: rest => first ++ rest.flatMap Name.titleChars

def guardDigit (name : List Char) : List Char :=
  match name with
  | c :: _ => if c.isDigit then '_' :: name else name
  | [] => []

def guardReserved (name : List Char) : List Char :=
  if isReserved (String.ofList name) then '_' :: name else name

def emptyIdentifier : String := "_empty"

def identifierChars (name : List Char) : List Char :=
  match joinWords (wordsFrom [] name) with
  | [] => emptyIdentifier.toList
  | joined => guardReserved (guardDigit (camelChars joined))

/-- The identifier made from a name. -/
def identifier (name : String) : String :=
  String.ofList (identifierChars name.toList)

end TypedClient.TypeScript
