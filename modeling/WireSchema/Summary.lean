import WireSchema.Graph

/-! What a type graph declares, in short. -/
namespace WireSchema

def Operation.summary (o : Operation) : Json :=
  .object [
    ("container", .string o.container), ("long_running", .bool o.longRunning.isSome),
    ("name", .string o.name), ("path", .string o.path), ("verb", .string o.verb.name)]

def TypeGraph.summary (graph : TypeGraph) : Json :=
  .object [
    ("operations", .ofList Operation.summary graph.operations),
    ("service", .object [
      ("api_version", .ofOption .string graph.service.apiVersion),
      ("title", .string graph.service.title)]),
    ("types", .ofList (fun e => .object [("key", .string e.1), ("kind", .string e.2.kind)])
      graph.types.entries)]

end WireSchema
