/-!
# File systems

What a run needs of a file system: reading and writing whole texts, and making
one directory at a time. Operations answer with the reason of a failure, and any
monad can provide them. A missing directory is made together with the missing
directories above it.
-/

namespace TypedClient

/-- Why an operation on a file fails. -/
inductive FileError where
  | missing
  | present
  | notDirectory
  | isDirectory
  /-- A name, or the path as a whole, is longer than the system allows. -/
  | tooLong
  /-- The path holds the null character. -/
  | nullCharacter
  /-- The contents are not a text. -/
  | notText
  | other (code : Nat) (text : String)
  deriving DecidableEq, Repr

namespace FileError

def systemText (text : String) (code : Nat) : String :=
  text ++ " (os error " ++ toString code ++ ")"

def message : FileError → String
  | missing => systemText "No such file or directory" 2
  | present => systemText "File exists" 17
  | notDirectory => systemText "Not a directory" 20
  | isDirectory => systemText "Is a directory" 21
  | tooLong => systemText "File name too long" 36
  | nullCharacter => "file name contained an unexpected NUL byte"
  | notText => "stream did not contain valid UTF-8"
  | other code text => systemText text code

end FileError

class FileSystem (m : Type → Type) where
  read : String → m (Except FileError String)
  write : String → String → m (Except FileError Unit)
  makeDirectory : String → m (Except FileError Unit)

namespace Path

/-- The most bytes that a name may have. -/
def nameLimit : Nat := 255

/-- The most bytes that a path may have. -/
def limit : Nat := 4095

def hasNullCharacter (path : String) : Bool :=
  path.toList.contains (Char.ofNat 0)

/-- What is wrong with a path whatever the files are. -/
def fault? (path : String) : Option FileError :=
  if hasNullCharacter path then some .nullCharacter
  else if path = "" then some .missing
  else if limit < path.utf8ByteSize then some .tooLong
  else none

/-- The names of a path; repeated slashes count as one. -/
def names (path : String) : List String :=
  (path.splitOn "/").filter (· ≠ "")

def isAbsolute (path : String) : Bool :=
  path.toList.head? = some '/'

def endsInSlash (path : String) : Bool :=
  path.toList.getLast? = some '/'

def ofNames (absolute : Bool) (names : List String) : String :=
  (if absolute then "/" else "") ++ "/".intercalate names

/-- A file inside a directory. -/
def join (directory name : String) : String :=
  if endsInSlash directory then directory ++ name else directory ++ "/" ++ name

/-- The names that take a path further; a dot does so only at the start of a relative path. -/
def steps (path : String) : List String :=
  match names path, isAbsolute path with
  | "." :: rest, false => "." :: rest.filter (· ≠ ".")
  | all, _ => all.filter (· ≠ ".")

/-- The directories above a path, from the nearest one up. -/
def parents (path : String) : List String :=
  ((List.range (steps path).length).filter (0 < ·)).reverse.map fun count =>
    ofNames (isAbsolute path) ((steps path).take count)

end Path

namespace FileSystem

variable {m : Type → Type} [Monad m] [FileSystem m]

def isDirectory (path : String) : m Bool := do
  match ← read path with
  | .error .isDirectory => return true
  | _ => return false

/-- A directory that is already there counts as made. -/
def orPresent (path : String) : Except FileError Unit → m (Except FileError Unit)
  | .error .present => do
    if ← isDirectory path then return .ok () else return .error .present
  | result => return result

/-- Makes a directory, and before it the missing ones among those above it. -/
def makeUnder (path : String) : List String → m (Except FileError Unit)
  | [] => do orPresent path (← makeDirectory path)
  | parent :: parents => do
    match ← makeDirectory path with
    | .error .missing =>
      match ← makeUnder parent parents with
      | .ok () => orPresent path (← makeDirectory path)
      | .error error => return .error error
    | result => orPresent path result

def makeDirectories (path : String) : m (Except FileError Unit) :=
  makeUnder path (Path.parents path)

end FileSystem

end TypedClient
