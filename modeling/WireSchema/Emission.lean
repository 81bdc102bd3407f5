import WireSchema.Resource

/-! What is written for some graphs: the list of their resources, or the operations of chosen
resources. -/
namespace WireSchema

structure OutputFile where
  path : String
  content : String
  deriving DecidableEq, Repr

inductive Emission where
  | listing
  /-- Of the graph with an api version, or of the first graph if none is given. -/
  | operations (version : Option String) (resources : List String)
  deriving DecidableEq, Repr

namespace Emission

abbrev EmitM := ExceptT EmitError (StateM Diagnostics)

def select (graphs : List TypeGraph) : Option String → Except EmitError (Option TypeGraph)
  | none => .ok graphs.head?
  | some version =>
    match graphs.find? (·.service.apiVersion == some version) with
    | some graph => .ok (some graph)
    | none => .error (.unknownApiVersion version)

def operationsOf (graph : Option TypeGraph) (ids : List String) : EmitM (List ResourceOperations) :=
  match graph with
  | none => return []
  | some graph => (ResourceOperations.ofIds graph ids).adapt .operation

def files (graphs : List TypeGraph) : Emission → EmitM (List OutputFile)
  | listing =>
    return [⟨"resources.json", (Json.ofList ResourceEntry.json (ResourceEntry.list graphs)).pretty⟩]
  | operations version ids => do
    let graph ← MonadExcept.ofExcept (select graphs version)
    let found ← operationsOf graph ids
    match found.mapM ResourceOperations.json? with
    | some items => return [⟨"resources_operations.json", (Json.array items).pretty⟩]
    | none => throw .unnamedReference

end Emission
end WireSchema
