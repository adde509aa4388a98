import TypedClient.Diagnostic
import TypedClient.FileSystem
import TypedClient.LoadError

/-!
# How a command ends

A command ends with an exit code and has written two texts: its result, and its
messages. A failure is reported in one message and ends with code 1.
-/

namespace TypedClient.CommandLine

structure Ending where
  code : Nat
  output : String := ""
  messages : String := ""
  deriving DecidableEq, Repr

/-- Why a generating run stops. -/
inductive Failure where
  | unreadable (path : String) (error : FileError)
  | load (error : LoadError)
  | compile (error : CompileError)
  /-- The output directory cannot be made. -/
  | noDirectory (path : String) (error : FileError)
  | unwritable (path : String) (error : FileError)
  /-- A file cannot be compared with what it should say. -/
  | incomparable (path : String) (error : FileError)

def Failure.message : Failure → String
  | unreadable path error => "failed to read " ++ path ++ ": " ++ error.message
  | load error => error.message
  | compile error => error.message
  | noDirectory path error => "Failed to create " ++ path ++ ": " ++ error.message
  | unwritable path error => "Failed to write " ++ path ++ ": " ++ error.message
  | incomparable path error => "Failed to read " ++ path ++ ": " ++ error.message

/-- The ending of a failure that comes after some other messages. -/
def Failure.ending (messages : String) (failure : Failure) : Ending :=
  { code := 1, messages := messages ++ "error: " ++ failure.message ++ "\n" }

end TypedClient.CommandLine
