import WireSchema.Scalar
import WireSchema.Text.Case

/-! Payloads that cannot be sent or received: multipart bodies and plain bytes. -/
namespace WireSchema.Content

/-- Looks at the content types in order; the first that is not supported is the error. -/
def check : List String → Except ConvertError Unit
  | [] => .ok ()
  | type :: rest =>
    let lower := Text.asciiLower type
    if lower.startsWith "multipart/" then .error .multipartBody
    else if lower = "application/octet-stream" then .error (.binaryPayload type)
    else check rest

/-- Whether a type is the scalar of bytes or a declared scalar derived from it. -/
def isBytes (graph : TypeGraph) (type : TypeRef) : Bool :=
  match graph.resolve type with
  | .ok (.builtin .bytes) => true
  | .ok (.declared id (.scalar _)) =>
    match ScalarChain.ofDeclared graph id with
    | .ok chain => chain.builtin = .bytes
    | .error _ => false
  | _ => false

end WireSchema.Content
