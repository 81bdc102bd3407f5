import WireSchema.Command
import WireSchema.Config
import WireSchema.Emission
import WireSchema.Graph.Reader
import WireSchema.Json.Reader
import WireSchema.Summary
import WireSchema.Yaml.Printer

/-! What the commands do. Results go to the standard output, everything else that is said to the
standard error. -/
namespace WireSchema

inductive CommandError where
  | config (cause : ConfigError)
  | unreadable (path : String) (cause : FileError)
  | unloadable (path : String) (cause : LoadError)
  | emit (cause : EmitError)
  | operation (cause : OperationError)
  | outputDirectory (path : String) (cause : FileError)
  | unwritable (path : String) (cause : FileError)
  | alreadyConfigured
  | file (cause : FileError)
  deriving DecidableEq, Repr

namespace CommandError

def message : CommandError → String
  | config cause => cause.message
  | unreadable path _ => "failed to read " ++ path
  | unloadable path _ => "failed to load " ++ path
  | emit cause => cause.message
  | operation cause => cause.message
  | outputDirectory path _ => "failed to create output directory " ++ path
  | unwritable path _ => "failed to write " ++ path
  | alreadyConfigured => Config.fileName ++ " already exists. Use --force to overwrite."
  | file cause => cause.message

def reason? : CommandError → Option String
  | unreadable _ cause => some cause.message
  | unloadable _ cause => some cause.message
  | outputDirectory _ cause => some cause.message
  | unwritable _ cause => some cause.message
  | _ => none

def report (e : CommandError) : String :=
  "Error: " ++ e.message ++ "\n" ++
    match e.reason? with
    | some reason => "\nCaused by:\n    " ++ reason ++ "\n"
    | none => ""

end CommandError

structure Transcript where
  out : String := ""
  err : String := ""

/-- A command at work. What it has written outlives a failure. -/
abbrev CommandM (m : Type → Type) := ExceptT CommandError (StateT Transcript m)

structure Outcome where
  code : Nat
  out : String := ""
  err : String := ""

namespace Command

variable {m : Type → Type} [Monad m]

def printOut (text : String) : CommandM m Unit := modify fun t => { t with out := t.out ++ text }

def say (line : String) : CommandM m Unit :=
  modify fun t => { t with err := t.err ++ line ++ "\n" }

def attempt {ε α : Type} (action : m (Except ε α)) (failed : ε → CommandError) : CommandM m α := do
  match ← (action : m (Except ε α)) with
  | .ok a => return a
  | .error e => throw (failed e)

/-- The graph in a text. A path that ends in `.json` says that it is JSON, all others mean YAML. -/
def graphOf (path text : String) : Except LoadError TypeGraph :=
  if Storage.extension? path = some "json" then
    TypeGraph.load .json .json (Json.Reader.document? text)
  else TypeGraph.load .yaml .yaml (Yaml.document? text)

def loadGraph (storage : Storage m) (path : String) : CommandM m TypeGraph := do
  let text ← attempt (storage.read path) (.unreadable path)
  match graphOf path text with
  | .ok graph => return graph
  | .error e => throw (.unloadable path e)

def sayDiagnostics (diagnostics : Diagnostics) : CommandM m Unit := do
  if !diagnostics.isEmpty then
    say (toString diagnostics.length ++ " diagnostics:")
    diagnostics.forM fun d => say ("  " ++ d.line)

def writeFile (storage : Storage m) (directory : String) (file : OutputFile) : CommandM m Unit := do
  let path := Storage.join directory file.path
  attempt (storage.write path file.content) (.unwritable path)
  say ("  wrote " ++ path)

def emissionOf (config : Config) (graphs : List TypeGraph) : Emission × String :=
  match config.operation with
  | .listResources =>
    (.listing, "Listing resources of " ++ toString graphs.length ++ " graphs")
  | .getResourcesOperations =>
    (.operations config.apiVersion config.resources,
      "Converting " ++ toString config.resources.length ++ " resources")

def performEmit (storage : Storage m) (inputs : List String) (output : Option String) :
    CommandM m Unit := do
  let config := (← attempt (Config.load storage) .config).getD {}
  let graphs ← (if inputs.isEmpty then config.input else inputs).mapM (loadGraph storage)
  let (emission, announcement) := emissionOf config graphs
  say announcement
  let (files, diagnostics) := (emission.files graphs).run []
  match files with
  | .error e => throw (.emit e)
  | .ok files => do
    let directory := output.getD config.output
    attempt (storage.makeDirectories directory) (.outputDirectory directory)
    files.forM (writeFile storage directory)
    sayDiagnostics diagnostics
    say ("Emitted " ++ toString files.length ++ " files in " ++ directory)

/-- Tells how large a graph is and converts all of its resources. -/
def performValidate (storage : Storage m) (input : String) : CommandM m Unit := do
  let graph ← loadGraph storage input
  say ("Valid type graph " ++ graph.version ++ ": " ++ graph.service.title)
  if let some label := graph.service.apiVersion then
    say ("  API version: " ++ label)
  say ("  Types: " ++ toString graph.types.size)
  say ("  Operations: " ++ toString graph.operations.length)
  let ids := (ResourceEntry.list [graph]).map (·.id)
  let (found, diagnostics) := (ResourceOperations.ofIds graph ids).run []
  match found with
  | .error e => throw (.operation e)
  | .ok found => do
    say ("  Resources: " ++ toString found.length)
    sayDiagnostics diagnostics
    say "Validation successful."

def performInspect (storage : Storage m) (input : String) (format : TextFormat) :
    CommandM m Unit := do
  let graph ← loadGraph storage input
  printOut (match format with
    | .yaml => Yaml.print graph.summary
    | .json => graph.summary.pretty ++ "\n")

def performInit (storage : Storage m) (force : Bool) : CommandM m Unit := do
  if !force && (← (storage.isPresent Config.fileName : m Bool)) then throw .alreadyConfigured
  attempt (storage.write Config.fileName Config.initialText) .file
  say ("Created " ++ Config.fileName)

def perform (storage : Storage m) : Command → CommandM m Unit
  | .emit inputs output => performEmit storage inputs output
  | .validate input => performValidate storage input
  | .inspect input format => performInspect storage input format
  | .init force => performInit storage force
  | .version => printOut "aaz 0.3.0\n"

/-- Runs the command that some arguments spell. Code 2 says that they spell none. -/
def run (storage : Storage m) (args : List String) : m Outcome := do
  match parse? args with
  | none => return { code := 2, err := usage }
  | some command =>
    match ← (perform storage command).run.run {} with
    | (.ok (), t) => return { code := 0, out := t.out, err := t.err }
    | (.error e, t) => return { code := 1, out := t.out, err := t.err ++ e.report }

end Command
end WireSchema
