/-!
# TOML values

The values of a configuration text. A table keeps its entries in the order in
which their keys first appear. How a table came to be decides what later lines
may add to it: a table in one piece is closed, a dotted key adds to tables that
dotted keys have made, and a header opens a table that was only passed so far.
-/

namespace TypedClient

inductive TableKind where
  /-- Written in one piece. -/
  | closed
  /-- Opened by a header of its own. -/
  | headed
  /-- Passed by the header of a table inside it. -/
  | passed
  /-- Made by a dotted key. -/
  | dotted
  deriving DecidableEq, Repr

inductive Toml where
  | string (value : String)
  | integer (value : Int)
  | real (value : Float)
  | bool (value : Bool)
  /-- A date, a time of day, or both, as it is written. -/
  | moment (text : String)
  | array (items : List Toml)
  | table (kind : TableKind) (entries : List (String × Toml))
  /-- An array of tables with a header each; lines add to the last one. -/
  | tables (earlier : List (List (String × Toml))) (last : List (String × Toml))

namespace Toml

abbrev Entries := List (String × Toml)

/-- The value has nothing in it. -/
def isEmpty : Toml → Bool
  | array items => items.isEmpty
  | table _ entries => entries.isEmpty
  | _ => false

/-- Gives another value to a key that is there. -/
def replace (key : String) (value : Toml) (entries : Entries) : Entries :=
  entries.map fun entry => if entry.1 = key then (key, value) else entry

/-- Adds an entry under a path of keys, making the tables on the way. An entry can only go
directly into the table that the path starts from and into tables made by dotted keys; a path
may lead through the tables passed by headers and through the last table of an array. -/
def insert (value : Toml) (direct : Bool) : List String → Entries → Option Entries
  | [], _ => none
  | [key], entries =>
    if direct && (entries.lookup key).isNone then some (entries ++ [(key, value)]) else none
  | key :: path, entries =>
    match entries.lookup key with
    | none =>
      (insert value true path []).map fun inner => entries ++ [(key, table .dotted inner)]
    | some (table .dotted inner) =>
      (insert value true path inner).map fun inner => replace key (table .dotted inner) entries
    | some (table .passed inner) =>
      (insert value false path inner).map fun inner => replace key (table .passed inner) entries
    | some (tables earlier last) =>
      (insert value false path last).map fun last => replace key (tables earlier last) entries
    | some _ => none

/-- Changes the table at the end of a header's path, making the tables on the way. -/
def changeAt (change : Entries → Option Entries) : List String → Entries → Option Entries
  | [], entries => change entries
  | key :: path, entries =>
    match entries.lookup key with
    | none => (changeAt change path []).map fun inner => entries ++ [(key, table .passed inner)]
    | some (table .closed _) => none
    | some (table kind inner) =>
      (changeAt change path inner).map fun inner => replace key (table kind inner) entries
    | some (tables earlier last) =>
      (changeAt change path last).map fun last => replace key (tables earlier last) entries
    | some _ => none

/-- Opens a table by its header. One that was only passed so far moves behind the others. -/
def openTable (key : String) (entries : Entries) : Option Entries :=
  match entries.lookup key with
  | none => some (entries ++ [(key, table .headed [])])
  | some (table .passed inner) =>
    some (entries.filter (·.1 ≠ key) ++ [(key, table .headed inner)])
  | some _ => none

/-- Opens another table of an array of tables. -/
def openElement (key : String) (entries : Entries) : Option Entries :=
  match entries.lookup key with
  | none => some (entries ++ [(key, tables [] [])])
  | some (tables earlier last) => some (replace key (tables (earlier ++ [last]) []) entries)
  | some _ => none

end Toml

end TypedClient
