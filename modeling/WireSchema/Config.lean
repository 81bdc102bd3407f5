import WireSchema.Document.Record
import WireSchema.Storage
import WireSchema.Yaml.Reader

/-! The settings of a project: which type graphs there are and what is written for them. -/
namespace WireSchema

inductive EmitOperation where
  | listResources
  | getResourcesOperations
  deriving DecidableEq, Repr

namespace EmitOperation

def name : EmitOperation → String
  | listResources => "list-resources"
  | getResourcesOperations => "get-resources-operations"

def all : List EmitOperation := [listResources, getResourcesOperations]

end EmitOperation

structure Config where
  /-- The files of the type graphs, one for each api version. -/
  input : List String := ["typegraph.yaml"]
  output : String := "aaz-output"
  operation : EmitOperation := .listResources
  /-- The version whose operations are converted. -/
  apiVersion : Option String := none
  /-- The ids of the resources whose operations are converted. -/
  resources : List String := []
  deriving DecidableEq, Repr

inductive ConfigError where
  | unreadable (cause : FileError)
  | malformed
  deriving DecidableEq, Repr

namespace Config

def fileName : String := ".aaz.yaml"

def fieldNames : List String := ["input", "output", "operation", "api_version", "resources"]

def ofNode? (node : Node) : Option Config := do
  let fields ← Fields.ofNode? .yaml fieldNames node
  let standard : Config := {}
  return {
    input := ← fields.default? "input" standard.input (Node.listOf? Node.text?)
    output := ← fields.default? "output" standard.output Node.text?
    operation := ← fields.default? "operation" standard.operation
      (Medium.yaml.choice? (EmitOperation.all.map fun o => (o.name, o)))
    apiVersion := ← fields.optional? "api_version" Node.text?
    resources := ← fields.default? "resources" standard.resources (Node.listOf? Node.text?) }

def ofText? (text : String) : Option Config := (Yaml.document? text).bind ofNode?

/-- The settings of the project in a directory; there need not be any. -/
def load {m : Type → Type} [Monad m] (storage : Storage m) :
    m (Except ConfigError (Option Config)) := do
  if !(← storage.isPresent fileName) then return .ok none
  match ← storage.read fileName with
  | .error cause => return .error (.unreadable cause)
  | .ok text =>
    match ofText? text with
    | some config => return .ok (some config)
    | none => return .error .malformed

def initialText : String :=
  "# aaz configuration\n" ++
  "input:\n" ++
  "  - typegraph.yaml\n" ++
  "output: aaz-output\n" ++
  "operation: list-resources   # list-resources | get-resources-operations\n" ++
  "\n" ++
  "# api_version: \"2024-01-01\"   # graph used by get-resources-operations\n" ++
  "resources: []\n" ++
  "  # - /subscriptions/\x7b\x7d/resourcegroups/\x7b\x7d/" ++
  "providers/microsoft.contoso/widgets/\x7b\x7d\n"

end Config

def ConfigError.message : ConfigError → String
  | unreadable cause => "failed to read config " ++ Config.fileName ++ ": " ++ cause.message
  | malformed => "failed to parse config " ++ Config.fileName ++ ": no valid settings"

end WireSchema
