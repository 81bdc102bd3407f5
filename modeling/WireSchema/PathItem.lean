import WireSchema.OperationSchema.Encode
import WireSchema.Paging

/-! The operations of a route, one for each verb, with a schema for every stage of the verb. -/
namespace WireSchema

open Json (optionalField)

structure VerbOperations where
  operationId : String
  pageable : Option Pageable := none
  read : Option OperationSchema := none
  create : Option OperationSchema := none
  update : Option OperationSchema := none

namespace VerbOperations

def stage? (v : VerbOperations) : Stage → Option OperationSchema
  | .read => v.read
  | .create => v.create
  | .update => v.update

def withStage (v : VerbOperations) (stage : Stage) (schema : OperationSchema) : VerbOperations :=
  match stage with
  | .read => { v with read := some schema }
  | .create => { v with create := some schema }
  | .update => { v with update := some schema }

end VerbOperations

abbrev PathItem := OrderedMap Verb VerbOperations

namespace TypeGraph

def assembleStages (assembler : Assembler) (operations : VerbOperations) (stages : List Stage) :
    OperationM VerbOperations :=
  stages.foldlM (fun v stage => return v.withStage stage (← assembler.assemble stage)) operations

/-- The route with an operation put under its verb. A verb without stages is reported and passed
over. -/
def convertOperation (graph : TypeGraph) (item : PathItem) (operation : Operation) :
    OperationM PathItem := do
  let operationId := Naming.operationId operation.container operation.name
  match Stage.ofVerb operation.verb with
  | [] => do
    modify (·.report .unexpectedVerb operationId
      ("verb `" ++ operation.verb.name ++ "` is not expected"))
    return item
  | stages => do
    let assembler ← Assembler.ofOperation graph operation operationId
    let operations ← assembleStages assembler
      { operationId, pageable := graph.pageable? operation } stages
    return item.put operation.verb operations

end TypeGraph

def Pageable.json (p : Pageable) : Json :=
  .object (("nextLinkName", .string p.nextLinkName) :: textField "itemName" p.itemName)

def VerbOperations.json? (v : VerbOperations) : Option Json := do
  return .object (("operationId", .string v.operationId) ::
    optionalField "pageable" (v.pageable.map Pageable.json) ++
    (← partField? "read" v.read OperationSchema.json?) ++
    (← partField? "create" v.create OperationSchema.json?) ++
    (← partField? "update" v.update OperationSchema.json?))

def PathItem.json? (item : PathItem) : Option Json := do
  return .object (← item.entries.mapM fun (verb, v) => do return (verb.name, ← v.json?))

end WireSchema
