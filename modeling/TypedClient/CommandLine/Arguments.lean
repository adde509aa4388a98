import TypedClient.Config
import TypedClient.Text.Replace

/-!
# Command-line arguments

The command `generate` takes options with a value, which follows an equals sign
or is the next argument, and switches without one. Each may be given once, only
flavors may be repeated. Arguments are read from left to right: help that is
asked for before the first mistake is given, and otherwise a mistake makes the
whole line void.
-/

namespace TypedClient.CommandLine

/-- What a generating run is to do. -/
structure Options where
  metadata : String
  config : Option String
  docs : Option String
  outDir : String
  /-- If there are any, they stand in for the flavors of the configuration. -/
  flavors : List Flavor
  /-- Compare the files that are there instead of writing them. -/
  check : Bool
  /-- Report the run as JSON. -/
  json : Bool
  deriving DecidableEq

inductive Invocation where
  | help
  | version
  | generate (options : Options)
  /-- The arguments make no command. -/
  | void
  deriving DecidableEq

/-- Options with a value. -/
inductive Setting where
  | metadata
  | config
  | docs
  | outDir
  | flavor
  deriving DecidableEq

inductive Switch where
  | check
  | json
  | help
  deriving DecidableEq

namespace Setting

def all : List Setting :=
  [metadata, config, docs, outDir, flavor]

def name : Setting → String
  | metadata => "metadata"
  | config => "config"
  | docs => "docs"
  | outDir => "out-dir"
  | flavor => "flavor"

end Setting

namespace Switch

def all : List Switch :=
  [check, json, help]

def name : Switch → String
  | check => "check"
  | json => "json"
  | help => "help"

end Switch

inductive Argument where
  | setting (setting : Setting) (value : Option String)
  | switch (switch : Switch)
  /-- Two dashes alone: what follows are no options. -/
  | terminator
  | unknown
  deriving DecidableEq

namespace Argument

/-- Cuts a text at its first equals sign. -/
def cutAtEquals (text : List Char) : String × Option String :=
  (String.ofList (text.takeWhile (· ≠ '=')),
    (text.dropWhile (· ≠ '=')).tail? |>.map String.ofList)

def ofLong (name : String) (value : Option String) : Argument :=
  match Setting.all.find? (·.name = name), Switch.all.find? (·.name = name), value with
  | some found, _, _ => setting found value
  | none, some found, none => switch found
  | _, _, _ => unknown

def ofText (text : String) : Argument :=
  match text.toList with
  | ['-', '-'] => terminator
  | '-' :: '-' :: long => ofLong (cutAtEquals long).1 (cutAtEquals long).2
  | '-' :: 'h' :: _ => switch .help
  | _ => unknown

end Argument

/-- A text with a dash in front is no value, but a dash alone is. -/
def isValue (text : String) : Bool :=
  text = "-" || text.toList.head? ≠ some '-'

/-- The options read so far. -/
structure Draft where
  metadata : Option String := none
  config : Option String := none
  docs : Option String := none
  outDir : Option String := none
  flavors : List Flavor := []
  check : Bool := false
  json : Bool := false

namespace Draft

/-- A path is not empty and given once. -/
def once (current : Option String) (value : String) : Option (Option String) :=
  if current.isNone ∧ value ≠ "" then some (some value) else none

def set (draft : Draft) (setting : Setting) (value : String) : Option Draft := do
  match setting with
  | .metadata => return { draft with metadata := ← once draft.metadata value }
  | .config => return { draft with config := ← once draft.config value }
  | .docs => return { draft with docs := ← once draft.docs value }
  | .outDir => return { draft with outDir := ← once draft.outDir value }
  | .flavor =>
    let flavor ← Flavor.all.find? (·.tag = value)
    return { draft with flavors := draft.flavors ++ [flavor] }

/-- The files go to the working directory unless another directory is named. -/
def finish (draft : Draft) : Invocation :=
  match draft.metadata with
  | some metadata =>
    .generate
      { metadata
        config := draft.config
        docs := draft.docs
        outDir := draft.outDir.getD "."
        flavors := draft.flavors
        check := draft.check
        json := draft.json }
  | none => .void

/-- Reads the options of a generating run. -/
def read (draft : Draft) : List String → Invocation
  | [] => draft.finish
  | text :: rest =>
    match Argument.ofText text with
    | .switch .help => .help
    | .switch .check => if draft.check then .void else read { draft with check := true } rest
    | .switch .json => if draft.json then .void else read { draft with json := true } rest
    | .setting setting (some value) =>
      match draft.set setting value with
      | some draft => read draft rest
      | none => .void
    | .setting setting none =>
      match rest with
      | [] => .void
      | value :: rest =>
        match isValue value, draft.set setting value with
        | true, some draft => read draft rest
        | _, _ => .void
    | .terminator => if rest = [] then draft.finish else .void
    | .unknown => .void

end Draft

/-- The commands that help is available for, the one that gives it included. -/
def topics : List String :=
  ["generate", "help"]

namespace Invocation

def ofArguments : List String → Invocation
  | [] => help
  | ["--"] => help
  | "generate" :: rest => Draft.read {} rest
  | ["help"] => help
  | ["help", topic] => if topic ∈ topics then help else void
  | "--help" :: _ => help
  | "--version" :: _ => version
  | text :: _ =>
    match text.toList with
    | '-' :: 'h' :: _ => help
    | '-' :: 'V' :: _ => version
    | _ => void

end Invocation

end TypedClient.CommandLine
