import TypedClient.FileSystem

/-!
# Workspaces

A workspace is a file system in memory. It holds directories and text files,
most of them below one working directory. The root and the directories above the
working directory are there, but nothing is in them unless it has been put there.
A path is followed name by name, so that each name before the last must lead to
a directory, and two dots lead to the directory above.
-/

namespace TypedClient

inductive Entry where
  | file (contents : String)
  | directory
  deriving DecidableEq, Repr

/-- A directory that is always there. -/
inductive Ground where
  /-- The directory that many levels above the working directory. -/
  | above (levels : Nat)
  | root
  deriving DecidableEq, Repr

/-- The directory above; the root is above itself. -/
def Ground.up : Ground → Ground
  | above levels => above (levels + 1)
  | root => root

/-- The names that lead from a directory to a file or directory. -/
structure Location where
  ground : Ground
  names : List String
  deriving DecidableEq, Repr

namespace Location

def up (location : Location) : Location :=
  if location.names = [] then { location with ground := location.ground.up }
  else { location with names := location.names.dropLast }

def child (location : Location) (name : String) : Location :=
  { location with names := location.names ++ [name] }

end Location

/-- The entry of a location is the first one listed for it. -/
structure Workspace where
  entries : List (Location × Entry) := []

namespace Workspace

def find? (workspace : Workspace) (location : Location) : Option Entry :=
  if location.names = [] then some .directory else workspace.entries.lookup location

def put (workspace : Workspace) (location : Location) (entry : Entry) : Workspace :=
  { entries := (location, entry) :: workspace.entries.filter (·.1 ≠ location) }

/-- Goes from a directory by one name. -/
def step (location : Location) (name : String) : Except FileError Location :=
  if name = "." then .ok location
  else if name = ".." then .ok location.up
  else if Path.nameLimit < name.utf8ByteSize then .error .tooLong
  else .ok (location.child name)

def follow (workspace : Workspace) (location : Location) : List String → Except FileError Location
  | [] => .ok location
  | name :: names =>
    match workspace.find? location with
    | none => .error .missing
    | some (.file _) => .error .notDirectory
    | some .directory => do workspace.follow (← step location name) names

/-- Where a path starts. -/
def start (path : String) : Location :=
  { ground := if Path.isAbsolute path then .root else .above 0, names := [] }

/-- Finds the location of a path that goes on with some more names. -/
def locateWith (workspace : Workspace) (path : String) (more : List String) :
    Except FileError Location :=
  match Path.fault? path with
  | some error => .error error
  | none => workspace.follow (start path) (Path.names path ++ more)

def locate (workspace : Workspace) (path : String) : Except FileError Location :=
  workspace.locateWith path []

/-- A slash at the end of a path asks for a directory. -/
def locateFile (workspace : Workspace) (path : String) : Except FileError Location :=
  workspace.locateWith path (if Path.endsInSlash path then ["."] else [])

def read (workspace : Workspace) (path : String) : Except FileError String := do
  match workspace.find? (← workspace.locateFile path) with
  | none => .error .missing
  | some .directory => .error .isDirectory
  | some (.file contents) => .ok contents

def write (workspace : Workspace) (path contents : String) : Except FileError Workspace := do
  let location ← workspace.locateFile path
  match workspace.find? location with
  | some .directory => .error .isDirectory
  | _ => return workspace.put location (.file contents)

def makeDirectory (workspace : Workspace) (path : String) : Except FileError Workspace := do
  let location ← workspace.locate path
  match workspace.find? location with
  | some _ => .error .present
  | none => return workspace.put location .directory

/-- Carries out a change, unless it fails. -/
def attempt (change : Workspace → Except FileError Workspace) :
    StateM Workspace (Except FileError Unit) := fun workspace =>
  match change workspace with
  | .ok changed => (.ok (), changed)
  | .error error => (.error error, workspace)

instance : FileSystem (StateM Workspace) where
  read path := fun workspace => (workspace.read path, workspace)
  write path contents := attempt fun workspace => workspace.write path contents
  makeDirectory path := attempt fun workspace => workspace.makeDirectory path

/-- The files below the working directory, with their paths from there. -/
def files (workspace : Workspace) : List (String × String) :=
  workspace.entries.filterMap fun (location, entry) =>
    match location.ground, entry with
    | .above 0, .file contents => some ("/".intercalate location.names, contents)
    | _, _ => none

/-- The files that are new or different since `earlier`. -/
def changedSince (workspace earlier : Workspace) : List (String × String) :=
  workspace.files.filter (· ∉ earlier.files)

@[simp]
theorem find?_put (workspace : Workspace) (location : Location) (entry : Entry)
    (h : location.names ≠ []) : (workspace.put location entry).find? location = some entry := by
  simp [find?, put, h]

theorem find?_put_of_ne (workspace : Workspace) (entry : Entry) {location other : Location}
    (h : other ≠ location) : (workspace.put location entry).find? other = workspace.find? other := by
  unfold find? put
  split
  · rfl
  · have hne : (other == location) = false := by simpa using h
    rw [List.lookup_cons, hne]
    induction workspace.entries with
    | nil => rfl
    | cons head entries ih =>
      obtain ⟨p, e⟩ := head
      by_cases hp : p = location
      · subst hp
        simpa [List.lookup_cons, hne] using ih
      · simp only [List.lookup_cons, List.filter_cons, hp, ne_eq, not_false_eq_true, decide_true,
          if_true, ih]

end Workspace

end TypedClient
