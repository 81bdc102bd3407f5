import WireSchema.Payload
import WireSchema.Schema
import WireSchema.Text.Case

/-! The bodies of error responses. They are not converted: a body has to have one of the known error
formats, perhaps wrapped in models of one property `error`, and is a reference to that format. -/
namespace WireSchema.ErrorBody

def odataFields : List String := ["code", "message", "target", "details", "innererror"]

def managementFields : List String := ["code", "message", "target", "details", "additionalinfo"]

def formatOfNames (names : List String) : Option String :=
  if names.contains "code" && names.contains "message" then
    if names.contains "additionalinfo" && names.all managementFields.contains then
      some "MgmtErrorFormat"
    else if names.all odataFields.contains then some "ODataV4Format"
    else none
  else none

def formatWithin (graph : TypeGraph) : Nat → TypeId → Except ResolveError (Option String)
  | 0, _ => return none
  | fuel + 1, id => do
    let payload ← graph.payload id .read
    match payload with
    | [only] =>
      if Text.asciiLower only.name = "error" then
        match graph.resolve only.decl.type with
        | .ok (.declared inner (.model _)) =>
          if inner = id then return none else formatWithin graph fuel inner
        | _ => return none
      else return formatOfNames [Text.asciiLower only.name]
    | payload => return formatOfNames (payload.map fun p => Text.asciiLower p.name)

/-- The known format of a model, if it has one. Wrappers that are all different are no more than
there are declarations. -/
def format? (graph : TypeGraph) (id : TypeId) : Except ResolveError (Option String) :=
  formatWithin graph (graph.types.size + 1) id

/-- The body of an error response; a type that is not a type of values has none. -/
def schema? (graph : TypeGraph) (type : Option TypeRef) (status : String) :
    Except ConvertError (Option Schema) :=
  match type with
  | none => .ok none
  | some type =>
    match graph.resolve type with
    | .error e => .error (.resolve e)
    | .ok (.intrinsic _) => .ok none
    | .ok (.declared id (.model _)) =>
      match format? graph id with
      | .error e => .error (.resolve e)
      | .ok (some format) => .ok (some (.ofKind (.reference (.external format))))
      | .ok none => .error (.unsupportedErrorFormat status)
    | .ok _ => .error (.unsupportedErrorFormat status)

end WireSchema.ErrorBody
