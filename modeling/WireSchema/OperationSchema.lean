import WireSchema.Request
import WireSchema.Response
import WireSchema.Route

/-! The schema of an operation at a stage. Its request and its responses are passes of their own:
each has a class table, and the classes that it shares are defined beside it. -/
namespace WireSchema

structure Definitions where
  request : OrderedMap String Schema := .empty
  responses : OrderedMap String Schema := .empty

structure OperationSchema where
  operationId : String
  description : Option String := none
  /-- Where the final state of a long-running operation is found. -/
  finalStateVia : Option String := none
  path : String
  request : Request
  responses : List Response
  definitions : Definitions

abbrev OperationM := ExceptT OperationError (StateM Diagnostics)

/-- Runs a pass on an empty class table. Its reports follow those made before. -/
def ConvertM.asPass {α : Type} (step : ConvertM α) (failed : ConvertError → OperationError) :
    OperationM (α × ClassTable) :=
  ExceptT.mk fun diagnostics =>
    match step.run { diagnostics } with
    | (.ok a, gathered) => (.ok (a, gathered.classes), gathered.diagnostics)
    | (.error e, gathered) => (.error (failed e), gathered.diagnostics)

/-- An operation under its identity, with the parameters of the host. These are converted once for
all stages, for reading. -/
structure Assembler where
  graph : TypeGraph
  operation : Operation
  operationId : String
  host : List NamedSchema

namespace Assembler

/-- A failure to convert the parameters of the host is laid on the first stage of the verb. -/
def ofOperation (graph : TypeGraph) (operation : Operation) (operationId : String) :
    OperationM Assembler := do
  let converter : Converter := ⟨graph, operationId⟩
  let stage := (Stage.ofVerb operation.verb).headD .read
  let (host, table) ← converter.hostParameters.asPass (⟨operationId, stage, .host, ·⟩)
  let host := host.map (·.resolve (table.finalize graph .read).nameOf)
  return { graph, operation, operationId, host }

def converter (a : Assembler) : Converter := ⟨a.graph, a.operationId⟩

/-- The request at a stage and the classes that it shares. -/
def request (a : Assembler) (stage : Stage) : OperationM (Request × OrderedMap String Schema) := do
  let (request, table) ← (a.converter.request a.host a.operation stage).asPass
    (⟨a.operationId, stage, .request, ·⟩)
  let table := table.finalize a.graph stage
  return (request.resolve table.nameOf, table.definitions)

def responses (a : Assembler) (stage : Stage) :
    OperationM (List Response × OrderedMap String Schema) := do
  let (responses, table) ← (a.converter.responses a.operation).asPass
    (⟨a.operationId, stage, .responses, ·⟩)
  let table := table.finalize a.graph stage
  return (responses.map (·.resolve table.nameOf), table.definitions)

/-- Reading is never long-running. -/
def finalStateVia (operation : Operation) : Option String :=
  match operation.longRunning, operation.verb with
  | none, _ => none
  | some _, .get => none
  | some declared, _ => some (declared.finalStateVia.getD "azure-async-operation")

def assemble (a : Assembler) (stage : Stage) : OperationM OperationSchema := do
  let (request, requestClasses) ← a.request stage
  let (responses, responseClasses) ← a.responses stage
  return {
    operationId := a.operationId
    description := a.operation.description
    finalStateVia := finalStateVia a.operation
    path := Route.withoutQuery a.operation.path
    request, responses
    definitions := ⟨requestClasses, responseClasses⟩ }

end Assembler
end WireSchema
