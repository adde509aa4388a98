import TypedClient.CommandLine.Command

/-!
# The program

Runs a command on the files of the machine.
-/

namespace TypedClient.CommandLine

def fileErrorOf : IO.Error → FileError
  | .noFileOrDirectory .. => .missing
  | .alreadyExists .. => .present
  | .inappropriateType _ 20 _ => .notDirectory
  | .inappropriateType _ 21 _ => .isDirectory
  | .invalidArgument _ 36 _ => .tooLong
  | .inappropriateType _ code text => .other code.toNat text
  | .permissionDenied _ code text => .other code.toNat text
  | .invalidArgument _ code text => .other code.toNat text
  | .resourceExhausted _ code text => .other code.toNat text
  | .otherError code text => .other code.toNat text
  | .userError _ => .notText
  | error => .other 5 error.toString

/-- Does something with the file or directory of a path. -/
def attempted {α : Type} (path : String) (action : IO α) : IO (Except FileError α) := do
  if Path.hasNullCharacter path then return .error .nullCharacter
  try return .ok (← action)
  catch error => return .error (fileErrorOf error)

instance : FileSystem IO where
  read path := attempted path (IO.FS.readFile path)
  write path contents := attempted path (IO.FS.writeFile path contents)
  makeDirectory path := attempted path (IO.FS.createDir path)

end TypedClient.CommandLine

def main (arguments : List String) : IO UInt32 := do
  let ending ← TypedClient.CommandLine.run arguments
  (← IO.getStdout).putStr ending.output
  (← IO.getStderr).putStr ending.messages
  return ending.code.toUInt32
