import TypedClient.Json.Decoder

/-!
# Errors of loading an input

An input fails because its file cannot be read, because its text is not what it
should be, or because it says something of the wrong shape. The wording of
syntax errors is not fixed; everything else has one message.
-/

namespace TypedClient

/-- The inputs of a run that are parsed. -/
inductive InputKind where
  | metadata
  | docs
  | config
  deriving DecidableEq, Repr

def InputKind.noun : InputKind → String
  | metadata => "metadata"
  | docs => "documentation map"
  | config => "configuration"

/-- Why an input cannot be parsed. -/
inductive ParseError where
  /-- A JSON text with a fault. -/
  | fault (fault : Json.Fault)
  /-- A configuration text with a fault. -/
  | malformed
  | shape (error : Json.ShapeError)

def ParseError.ofProblem : Json.Problem → ParseError
  | .fault found => .fault found
  | .shape found => .shape found

/-- What the error says about the text. -/
def ParseError.detail : ParseError → String
  | .fault .ended => "the text ends too early"
  | .fault .malformed => "the text is malformed"
  | .malformed => "the text is malformed"
  | .shape found => found.message

structure LoadError where
  input : InputKind
  error : ParseError

def LoadError.message (error : LoadError) : String :=
  "failed to parse " ++ error.input.noun ++ ": " ++ error.error.detail

end TypedClient
