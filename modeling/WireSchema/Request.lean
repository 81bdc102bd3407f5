import WireSchema.Content
import WireSchema.Convert

/-! The request of an operation at a stage: its arguments by location, constants apart, and its
body. The parameters of the host are arguments of the path. -/
namespace WireSchema

structure Arguments where
  params : List NamedSchema := []
  consts : List NamedSchema := []

namespace Arguments

def isEmpty (a : Arguments) : Bool := a.params.isEmpty && a.consts.isEmpty

def find? (a : Arguments) (name : String) : Option NamedSchema :=
  (a.params ++ a.consts).find? (·.name == name)

def add (a : Arguments) (schema : NamedSchema) : Arguments :=
  if schema.schema.isConst then { a with consts := a.consts ++ [schema] }
  else { a with params := a.params ++ [schema] }

/-- Arguments with equal names keep their order. -/
def sortByName (schemas : List NamedSchema) : List NamedSchema :=
  schemas.mergeSort fun a b => a.name ≤ b.name

def sorted (a : Arguments) : Arguments := ⟨sortByName a.params, sortByName a.consts⟩

def resolve (names : Slot → Option String) (a : Arguments) : Arguments :=
  ⟨a.params.map (·.resolve names), a.consts.map (·.resolve names)⟩

/-- No arguments at all are left out of a request. -/
def nonEmpty? (a : Arguments) : Option Arguments := if a.isEmpty then none else some a

end Arguments

structure Headers where
  args : Arguments := {}
  /-- The header that carries the request's identity, as it is spelled. -/
  clientRequestId : Option String := none

def Headers.nonEmpty? (h : Headers) : Option Headers :=
  if h.args.isEmpty && h.clientRequestId.isNone then none else some h

structure Request where
  method : Verb
  path : Option Arguments := none
  query : Option Arguments := none
  header : Option Headers := none
  body : Option NamedSchema := none

def Request.resolve (names : Slot → Option String) (r : Request) : Request :=
  { r with
    path := r.path.map (·.resolve names)
    query := r.query.map (·.resolve names)
    header := r.header.map fun h => { h with args := h.args.resolve names }
    body := r.body.map (·.resolve names) }

namespace Server

/-- The names between braces in an address. A brace that is not closed ends the search; `name` is
what follows an open brace, in reverse. -/
def placeholdersFrom : Option (List Char) → List Char → List (List Char)
  | _, [] => []
  | none, c :: rest => placeholdersFrom (if c = '{' then some [] else none) rest
  | some name, c :: rest =>
    if c = '}' then name.reverse :: placeholdersFrom none rest
    else placeholdersFrom (some (c :: name)) rest

def placeholders (server : Server) : List String :=
  (placeholdersFrom none server.url.toList).map String.ofList

end Server

namespace Converter

def hostParameter (c : Converter) (name : String) (decl : HostParameter) :
    ConvertM (Option NamedSchema) := do
  match ← c.convert decl.type { visibility := .query } [] with
  | none => return none
  | some schema => return some {
      name, schema
      required := true
      description := decl.description
      skipUrlEncoding := decl.allowReserved }

/-- The parameters of the host. Placeholders of its address that have no parameter are reported. -/
def hostParameters (c : Converter) : ConvertM (List NamedSchema) :=
  match c.graph.service.server with
  | none => return []
  | some server => do
    for name in server.placeholders do
      if !server.parameters.contains name then
        c.report .missingHostParameter
          ("host template parameter `" ++ name ++ "` has no binding")
    ConvertM.keep (fun e => c.hostParameter e.1 e.2) server.parameters.entries

/-- One parameter of an operation. One that can never have a value is left out, and so is an
optional one whose type has no form on the wire. -/
def parameter (c : Converter) (p : Parameter) : ConvertM (Option NamedSchema) := do
  match ← ConvertM.ofResolve (c.graph.resolve p.type) with
  | .intrinsic .never => return none
  | _ =>
    let ctx : Context := { visibility := .query, collection := p.collectionFormat }
    let required := p.location == .path || !p.optional
    match ← c.convert p.type ctx [p.constraints] with
    | none =>
      if required then throw (.missingSchema ("parameter `" ++ p.name ++ "`")) else return none
    | some schema => return some {
        name := p.name
        schema := { schema with default := schema.default.or p.default }
        required
        description := p.description
        secret := c.graph.isSecret p.type p.constraints
        skipUrlEncoding := p.allowReserved }

def isImpliedHeader (p : Parameter) : Bool :=
  p.location == .header &&
    (Text.asciiLower p.name == "content-type" || Text.asciiLower p.name == "accept")

def isClientRequestId (p : Parameter) : Bool :=
  p.location == .header && Text.asciiLower p.name == "x-ms-client-request-id"

def addParameter (c : Converter) (r : Arguments × Arguments × Headers) (p : Parameter) :
    ConvertM (Arguments × Arguments × Headers) := do
  let (path, query, header) := r
  if isImpliedHeader p then return r
  if isClientRequestId p then return (path, query, { header with clientRequestId := some p.name })
  match ← c.parameter p with
  | none => return r
  | some schema =>
    match p.location with
    | .path => return (path.add schema, query, header)
    | .query => return (path, query.add schema, header)
    | .header => return (path, query, { header with args := header.args.add schema })

/-- The body of a request. An object that is not marked as the body is spread over the command. -/
def requestBody (c : Converter) (decl : Option BodyDecl) (stage : Stage) :
    ConvertM (Option NamedSchema) :=
  match decl with
  | none => return none
  | some body => do
    MonadExcept.ofExcept (Content.check body.contentTypes)
    if Content.isBytes c.graph body.type then throw (.binaryPayload "bytes request body")
    match ← c.convert body.type { visibility := stage.visibility } [] with
    | none => if body.optional then return none else throw (.missingSchema "request body")
    | some schema => return some {
        name := body.name.getD "body"
        schema
        required := !body.optional
        description := body.description
        clientFlatten := !body.explicit && schema.kind.isObjectLike }

def request (c : Converter) (host : List NamedSchema) (operation : Operation) (stage : Stage) :
    ConvertM Request := do
  let (path, query, header) ←
    operation.parameters.foldlM c.addParameter (({ params := host } : Arguments), {}, {})
  let body ← c.requestBody operation.body stage
  return {
    method := operation.verb
    path := path.sorted.nonEmpty?
    query := query.sorted.nonEmpty?
    header := Headers.nonEmpty? { header with args := header.args.sorted }
    body }

end Converter
end WireSchema
