import TypedClient.Text.Blank

/-!
# Documentation of symbols

Documentation texts are found by symbol keys: `T:` for types, `P:` for members,
`F:` for the constants of an enumeration and `M:` for operations. A text is
used without the blanks around it, and a blank text counts as none. If a key is
given several times, the last text wins.
-/

namespace TypedClient

structure Docs where
  entries : List (String × String) := []

namespace Docs

/-- Adds a text, replacing an earlier one of the same key in its place. -/
def insertEntry (key text : String) : List (String × String) → List (String × String)
  | [] => [(key, text)]
  | (other, old) :: rest =>
    if other = key then (key, text) :: rest else (other, old) :: insertEntry key text rest

def insert (docs : Docs) (key text : String) : Docs :=
  ⟨insertEntry key text docs.entries⟩

def ofList (entries : List (String × String)) : Docs :=
  entries.foldl (fun docs entry => docs.insert entry.1 entry.2) {}

def size (docs : Docs) : Nat :=
  docs.entries.length

def lookup? (docs : Docs) (key : String) : Option String :=
  (docs.entries.lookup key).bind fun text =>
    match Text.trim text with
    | "" => none
    | trimmed => some trimmed

def typeKey (type : String) : String :=
  "T:" ++ type

def memberKey (type member : String) : String :=
  "P:" ++ type ++ "." ++ member

def constantKey (type constant : String) : String :=
  "F:" ++ type ++ "." ++ constant

def operationKey (container operation : String) : String :=
  "M:" ++ container ++ "." ++ operation

end Docs

/-- Whatever finds documentation texts by symbol key; a run knows nothing else about it. -/
structure DocSource where
  lookup? : String → Option String

instance : Coe Docs DocSource where
  coe docs := ⟨docs.lookup?⟩

/-- The documentation of a symbol that may name its key itself. -/
def DocSource.find? (docs : DocSource) (explicit : Option String) (key : String) : Option String :=
  docs.lookup? (explicit.getD key)

end TypedClient
