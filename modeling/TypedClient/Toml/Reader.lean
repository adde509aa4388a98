import TypedClient.Toml.Moment
import TypedClient.Toml.Number
import TypedClient.Toml.Quoted

/-!
# Reading TOML text

A document is a sequence of lines: entries with bare, quoted or dotted keys,
table headers, comments and blank lines. Arrays may run over several lines,
tables in one piece may not. A text with any fault, or with a key given twice,
has no value at all, nor has one that nests too deep.
-/

namespace TypedClient.Toml

/-- How deep arrays and tables in one piece may be nested, and how many parts a key may have. -/
def nestingLimit : Nat := 79

/-! ## Keys -/

def isBareKeyChar (c : Char) : Bool :=
  c.isAlphanum || c == '-' || c == '_'

def simpleKey (fuel : Nat) : List Char → Option (String × List Char)
  | '"' :: rest => basicString [] fuel rest
  | '\'' :: rest => literalString rest
  | text =>
    match text.takeWhile isBareKeyChar with
    | [] => none
    | key => some (String.ofList key, text.dropWhile isBareKeyChar)

/-- Keys with dots between them. -/
def keyParts : Nat → List Char → Option (List String × List Char)
  | 0, _ => none
  | fuel + 1, text => do
    let (key, rest) ← simpleKey fuel (skipBlanks text)
    match skipBlanks rest with
    | '.' :: rest => do
      let (parts, rest) ← keyParts fuel rest
      return (key :: parts, rest)
    | rest => return ([key], rest)

/-- A key, or several with dots between them. -/
def keyPath (fuel : Nat) (text : List Char) : Option (List String × List Char) := do
  let (path, rest) ← keyParts fuel text
  if path.length ≤ nestingLimit then some (path, rest) else none

/-! ## Values -/

mutual

/-- The value in front of a text, in which arrays and tables may be nested `depth` deep. -/
def value : Nat → Nat → List Char → Option (Toml × List Char)
  | 0, _, _ => none
  | fuel + 1, depth, text =>
    match text with
    | '"' :: _ => (stringValue fuel text).map fun (value, rest) => (.string value, rest)
    | '\'' :: _ => (stringValue fuel text).map fun (value, rest) => (.string value, rest)
    | 't' :: 'r' :: 'u' :: 'e' :: rest => some (.bool true, rest)
    | 'f' :: 'a' :: 'l' :: 's' :: 'e' :: rest => some (.bool false, rest)
    | '[' :: rest =>
      match depth with
      | 0 => none
      | depth + 1 => do
        let (items, rest) ← items fuel depth rest
        return (.array items, rest)
    | '{' :: rest =>
      match depth, skipBlanks rest with
      | 0, _ => none
      | _, '}' :: rest => some (.table .closed [], rest)
      | depth + 1, rest => do
        let (entries, rest) ← entries fuel depth [] rest
        return (.table .closed entries, rest)
    | text => if startsLikeDate text || startsLikeTime text then momentValue text else numberValue text

/-- The items of an array after its opening bracket or after a comma. -/
def items : Nat → Nat → List Char → Option (List Toml × List Char)
  | 0, _, _ => none
  | fuel + 1, depth, text => do
    match ← skipFiller fuel text with
    | ']' :: rest => return ([], rest)
    | rest =>
      let (item, rest) ← value fuel depth rest
      match ← skipFiller fuel rest with
      | ']' :: rest => return ([item], rest)
      | ',' :: rest => do
        let (more, rest) ← items fuel depth rest
        return (item :: more, rest)
      | _ => none

/-- The entries of a table in one piece. -/
def entries : Nat → Nat → Entries → List Char → Option (Entries × List Char)
  | 0, _, _, _ => none
  | fuel + 1, depth, done, text => do
    let (path, rest) ← keyPath fuel text
    match rest with
    | '=' :: rest =>
      let (found, rest) ← value fuel depth (skipBlanks rest)
      let done ← insert found true path done
      match skipBlanks rest with
      | '}' :: rest => return (done, rest)
      | ',' :: rest => entries fuel depth done rest
      | _ => none
    | _ => none

end

/-! ## Documents -/

/-- A table header: its path, and whether it opens a new element of an array of tables. -/
def header (fuel : Nat) : List Char → Option ((List String × Bool) × List Char)
  | '[' :: '[' :: rest => do
    let (path, rest) ← keyPath fuel rest
    match rest with
    | ']' :: ']' :: rest => return ((path, true), rest)
    | _ => none
  | '[' :: rest => do
    let (path, rest) ← keyPath fuel rest
    match rest with
    | ']' :: rest => return ((path, false), rest)
    | _ => none
  | _ => none

/-- What has been read, and the path of the table that lines add to. -/
structure Document where
  root : Entries := []
  path : List String := []

def Document.addEntry (document : Document) (path : List String) (found : Toml) :
    Option Document :=
  (changeAt (insert found true path) document.path document.root).map
    fun root => { document with root }

def Document.addHeader (document : Document) (path : List String) (isElement : Bool) :
    Option Document := do
  let key ← path.getLast?
  let root ←
    changeAt (if isElement then openElement key else openTable key) path.dropLast document.root
  return { root, path }

def readLines : Nat → Document → List Char → Option Document
  | 0, _, _ => none
  | fuel + 1, document, text => do
    match ← skipFiller fuel text with
    | [] => return document
    | '[' :: rest =>
      let ((path, isElement), rest) ← header fuel ('[' :: rest)
      readLines fuel (← document.addHeader path isElement) (← endOfLine rest)
    | rest =>
      let (path, rest) ← keyPath fuel rest
      match rest with
      | '=' :: rest =>
        let (found, rest) ← value fuel nestingLimit (skipBlanks rest)
        readLines fuel (← document.addEntry path found) (← endOfLine rest)
      | _ => none

def dropByteOrderMark (text : List Char) : List Char :=
  if text.head? = some '\ufeff' then text.drop 1 else text

/-- The entries of a document, if it has no fault. -/
def read (text : String) : Option Entries :=
  let chars := dropByteOrderMark text.toList
  (readLines (2 * chars.length + 2) {} chars).map Document.root

end TypedClient.Toml
