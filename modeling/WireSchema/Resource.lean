import WireSchema.PathItem

/-! The resources of a service: the operations of one resource have routes of one id. Every version
of the service, each a graph of its own, can be listed; the operations of chosen resources are
converted for one version. -/
namespace WireSchema

def Operation.route (o : Operation) : String := Route.resourcePath o.path o.sharedRoute

def Operation.resourceId (o : Operation) : String := Route.resourceId o.route

def TypeGraph.apiVersion (graph : TypeGraph) : String :=
  graph.service.apiVersion.getD "unversioned"

structure ResourceVersion where
  version : String
  path : String
  id : String
  deriving DecidableEq, Repr

structure ResourceEntry where
  id : String
  versions : List ResourceVersion
  deriving DecidableEq, Repr

namespace ResourceEntry

/-- The routes of each resource by version; the last operation of a version decides. -/
abbrev Index := OrderedMap String (OrderedMap String String)

def enter (index : Index) (version : String) (operation : Operation) : Index :=
  let versions := (index.get? operation.resourceId).getD .empty
  index.put operation.resourceId (versions.put version operation.route)

def index (graphs : List TypeGraph) : Index :=
  graphs.foldl (fun index graph =>
    graph.operations.foldl (fun index operation => enter index graph.apiVersion operation) index)
    .empty

def list (graphs : List TypeGraph) : List ResourceEntry :=
  (index graphs).entries.map fun (id, versions) =>
    { id, versions := versions.entries.map fun (version, path) => { version, path, id } }

def json (e : ResourceEntry) : Json :=
  .object [
    ("id", .string e.id),
    ("versions", .ofList (fun v => .object [
      ("version", .string v.version), ("path", .string v.path), ("id", .string v.id)]) e.versions)]

end ResourceEntry

structure ResourceOperations where
  id : String
  path : String
  version : String
  item : PathItem

namespace ResourceOperations

structure Found where
  path : String := ""
  item : PathItem := .empty

/-- The resources that are asked for, by id. -/
abbrev Search := OrderedMap String Found

def Search.ofIds (ids : List String) : Search := .ofEntries (ids.map (·, {}))

/-- Converts an operation if its resource is asked for. The first route that is not empty is the
resource's. -/
def findOperation (graph : TypeGraph) (search : Search) (operation : Operation) :
    OperationM Search :=
  match search.get? operation.resourceId with
  | none => return search
  | some found => do
    let path := if found.path.isEmpty then operation.route else found.path
    let item ← graph.convertOperation found.item operation
    return search.put operation.resourceId { path, item }

/-- The operations of resources, in the order of the ids. Resources without operations are left
out. -/
def ofIds (graph : TypeGraph) (ids : List String) : OperationM (List ResourceOperations) := do
  let search ← graph.operations.foldlM (findOperation graph) (Search.ofIds ids)
  let found := search.entries.filter fun e => !e.2.item.isEmpty
  return found.map fun (id, found) =>
    { id, path := found.path, version := graph.apiVersion, item := found.item }

def json? (r : ResourceOperations) : Option Json := do
  return .object [
    ("id", .string r.id), ("path", .string r.path), ("version", .string r.version),
    ("pathItem", ← r.item.json?)]

end ResourceOperations
end WireSchema
