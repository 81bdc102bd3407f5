import WireSchema.OperationSchema
import WireSchema.Schema.Encode

/-! The JSON form of operation schemas. Parts that are absent or empty are left out. There is no
JSON form where a class reference has no name. -/
namespace WireSchema

open Json (optionalField flagField)

def Arguments.fields? (a : Arguments) : Option (List (String × Json)) := do
  return listField "params" (← a.params.mapM NamedSchema.json?) ++
    listField "consts" (← a.consts.mapM NamedSchema.json?)

def Headers.fields? (h : Headers) : Option (List (String × Json)) := do
  return (← h.args.fields?) ++ textField "clientRequestId" h.clientRequestId

def payloadJson (fields : List (String × Json)) : Json := .object [("json", .object fields)]

def partField? {α : Type} (key : String) (part : Option α) (encode : α → Option Json) :
    Option (List (String × Json)) :=
  match part with
  | none => some []
  | some a => do return [(key, ← encode a)]

def Request.json? (r : Request) : Option Json := do
  return .object (("method", .string r.method.name) ::
    (← partField? "path" r.path fun a => a.fields?.map .object) ++
    (← partField? "query" r.query fun a => a.fields?.map .object) ++
    (← partField? "header" r.header fun h => h.fields?.map .object) ++
    (← partField? "body" r.body fun s => do return payloadJson [("schema", ← s.json?)]))

def ResponseBody.json? (b : ResponseBody) : Option Json := do
  return payloadJson (textField "var" b.var ++ [("schema", ← b.schema.json?)])

def headersJson (names : List String) : Json :=
  .object [("items", Json.ofList (fun name => .object [("name", .string name)]) names)]

def Response.json? (r : Response) : Option Json := do
  return .object (
    optionalField "statusCode"
      (r.statusCodes.map (Json.ofList fun (code : Nat) => .integer code)) ++
    flagField "isError" r.isError ++
    textField "description" r.description ++
    optionalField "header" (r.headers.map headersJson) ++
    (← partField? "body" r.body ResponseBody.json?))

def definitionsField? (key : String) (definitions : OrderedMap String Schema) :
    Option (List (String × Json)) := do
  let fields ← definitions.entries.mapM fun (name, schema) => do return (name, ← schema.json?)
  return if fields.isEmpty then [] else [(key, .object fields)]

def Definitions.fields? (d : Definitions) : Option (List (String × Json)) := do
  let fields := (← definitionsField? "request" d.request) ++
    (← definitionsField? "responses" d.responses)
  return if fields.isEmpty then [] else [("clsDefinitions", .object fields)]

def OperationSchema.json? (o : OperationSchema) : Option Json := do
  let http : List (String × Json) := [
    ("path", .string o.path),
    ("request", ← o.request.json?),
    ("responses", .array (← o.responses.mapM Response.json?))]
  return .object (("operationId", .string o.operationId) ::
    textField "description" o.description ++
    optionalField "longRunning"
      (o.finalStateVia.map fun via => .object [("finalStateVia", .string via)]) ++
    [("http", .object (http ++ (← o.definitions.fields?)))])

end WireSchema
