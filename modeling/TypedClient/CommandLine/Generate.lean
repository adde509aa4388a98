import TypedClient.CommandLine.Arguments
import TypedClient.CommandLine.Ending
import TypedClient.Config.Decoder
import TypedClient.Difference.Hunk
import TypedClient.Docs.Decoder
import TypedClient.Generation
import TypedClient.Json.Printer
import TypedClient.Metadata.Decoder
import TypedClient.Rendering.Files

/-!
# The command that generates clients

A run loads the configuration, the metadata and the documentation, compiles
them, and writes a file for each flavor. A check compares the files that are
there instead, and shows what would change. No file is touched before all inputs
are loaded and compiled.
-/

namespace TypedClient.CommandLine

structure Inputs where
  config : Config
  metadata : Metadata
  docs : Docs

/-- What a run has made of its inputs. -/
structure Product where
  generation : Generation
  files : List RenderedFile

def Inputs.compile (inputs : Inputs) : Except Failure Product := do
  let generation ← (Generation.run inputs.config inputs.docs inputs.metadata).mapError .compile
  return { generation, files := generation.client.renderAll inputs.config }

/-- A file that is missing or says something else than it should. -/
structure Drift where
  file : RenderedFile
  existing : String
  deriving DecidableEq, Repr

def Drift.report (drift : Drift) : String :=
  Difference.report drift.file.path drift.existing drift.file.contents

namespace Product

def summary (product : Product) (drifts : List Drift) : Json :=
  .object [
    ("declarations", .natural product.generation.client.declarationCount),
    ("drifted", .strings (drifts.map (·.file.path))),
    ("files", .strings (product.files.map (·.path))),
    ("functions", .natural product.generation.client.functionCount),
    ("namespaces", .strings (product.generation.client.map (·.name))),
    ("warnings", .strings (product.generation.diagnostics.map Diagnostic.message))]

def counts (product : Product) : String :=
  "typeweave " ++ toString product.generation.client.declarationCount ++ " declarations, " ++
    toString product.generation.client.functionCount ++ " functions, " ++
    toString product.generation.diagnostics.length ++ " warnings"

/-- The ending of a run that went through, with the files that have drifted. -/
def ending (product : Product) (json : Bool) (drifts : List Drift) : Ending :=
  let reports := String.join (drifts.map Drift.report)
  let code := if drifts = [] then 0 else 1
  if json then
    { code, output := (product.summary drifts).print ++ "\n", messages := reports }
  else { code, messages := reports ++ product.counts ++ "\n" }

end Product

variable {m : Type → Type} [Monad m] [FileSystem m]

/-- Reads a file and understands its text. -/
def loadFile {α : Type} (path : String) (understand : String → Except LoadError α) :
    m (Except Failure α) := do
  match ← FileSystem.read path with
  | .ok text => return (understand text).mapError .load
  | .error error => return .error (.unreadable path error)

/-- An input that is not named has its default. -/
def loadOptional {α : Type} (path : Option String) (default : α)
    (understand : String → Except LoadError α) : m (Except Failure α) :=
  match path with
  | some path => loadFile path understand
  | none => return .ok default

/-- The configuration with the flavors of the command line, if it names any. -/
def Options.configure (options : Options) (config : Config) : Config :=
  if options.flavors = [] then config else { config with flavors := options.flavors }

def Options.load (options : Options) : ExceptT Failure m Inputs := do
  let config ← ExceptT.mk (loadOptional options.config {} Config.ofText)
  let metadata ← ExceptT.mk (loadFile options.metadata Metadata.ofText)
  let docs ← ExceptT.mk (loadOptional options.docs {} Docs.ofText)
  return { config := options.configure config, metadata, docs }

def Options.product (options : Options) : ExceptT Failure m Product := do
  let inputs ← options.load
  ExceptT.mk (return inputs.compile)

/-- Writes files one after the other, up to the first failure. -/
def writeAll (directory : String) : List RenderedFile → m (Except Failure Unit)
  | [] => return .ok ()
  | file :: files => do
    let path := Path.join directory file.path
    match ← FileSystem.write path file.contents with
    | .ok () => writeAll directory files
    | .error error => return .error (.unwritable path error)

def deliver (directory : String) (files : List RenderedFile) : m (Except Failure Unit) := do
  match ← FileSystem.makeDirectories directory with
  | .ok () => writeAll directory files
  | .error error => return .error (.noDirectory directory error)

/-- The text of a file, or none at all if it is missing. -/
def existingText (path : String) : m (Except Failure String) := do
  match ← FileSystem.read path with
  | .ok text => return .ok text
  | .error .missing => return .ok ""
  | .error error => return .error (.incomparable path error)

def Drift.of? (file : RenderedFile) (existing : String) : Option Drift :=
  if existing = file.contents then none else some { file, existing }

/-- The files that have drifted, and the failure that ended the comparison early. -/
def compareAll (directory : String) : List RenderedFile → m (List Drift × Option Failure)
  | [] => return ([], none)
  | file :: files => do
    match ← existingText (Path.join directory file.path) with
    | .ok existing =>
      let (drifts, failure) ← compareAll directory files
      return ((Drift.of? file existing).toList ++ drifts, failure)
    | .error failure => return ([], some failure)

def Options.finish (options : Options) (product : Product) : m Ending := do
  if options.check then
    match ← compareAll options.outDir product.files with
    | (drifts, none) => return product.ending options.json drifts
    | (drifts, some failure) =>
      return failure.ending (String.join (drifts.map Drift.report))
  else
    match ← deliver options.outDir product.files with
    | .ok () => return product.ending options.json []
    | .error failure => return failure.ending ""

def Options.run (options : Options) : m Ending := do
  match ← options.product.run with
  | .ok product => options.finish product
  | .error failure => return failure.ending ""

end TypedClient.CommandLine
