import WireSchema.Stage

/-! What can go wrong, by cause, and the wording of each cause. -/
namespace WireSchema

inductive TextFormat where
  | json
  | yaml
  deriving DecidableEq, Repr

inductive LoadError where
  /-- The text is not a document of its format, or the document is not a type graph. -/
  | malformed (format : TextFormat)
  | unsupportedVersion (version : String)
  deriving DecidableEq, Repr

def LoadError.message : LoadError → String
  | malformed .json => "failed to parse JSON"
  | malformed .yaml => "failed to parse YAML"
  | unsupportedVersion version => "unsupported type graph version: " ++ version

inductive ResolveError where
  | unknownType (name : String)
  | notAModel (name : String)
  | unknownProperty (model property : String)
  deriving DecidableEq, Repr

def ResolveError.message : ResolveError → String
  | unknownType name => "unresolved type reference: " ++ name
  | notAModel name => "type `" ++ name ++ "` is not a model"
  | unknownProperty model property => "model `" ++ model ++ "` has no property `" ++ property ++ "`"

inductive ConvertError where
  | resolve (cause : ResolveError)
  | multipartBody
  | binaryPayload (detail : String)
  | unsupportedErrorFormat (status : String)
  | missingSchema (location : String)
  /-- A type refers to itself without passing through a model. -/
  | endless
  deriving DecidableEq, Repr

def ConvertError.message : ConvertError → String
  | resolve cause => cause.message
  | multipartBody => "multipart request bodies are not supported"
  | binaryPayload detail => "binary payloads are not supported (" ++ detail ++ ")"
  | unsupportedErrorFormat status =>
    "error response `" ++ status ++ "` does not match a known error format"
  | missingSchema location => location ++ " is required but resolved to no schema"
  | endless => "type refers to itself without passing through a model"

inductive Pass where
  | host
  | request
  | responses
  deriving DecidableEq, Repr

def Pass.name : Pass → String
  | host => "host parameters"
  | request => "request"
  | responses => "responses"

structure OperationError where
  operation : String
  stage : Stage
  pass : Pass
  cause : ConvertError
  deriving DecidableEq, Repr

def OperationError.message (e : OperationError) : String :=
  "operation `" ++ e.operation ++ "` failed in " ++ e.stage.name ++ " " ++ e.pass.name ++ ": " ++
    e.cause.message

inductive EmitError where
  | operation (cause : OperationError)
  /-- A class reference has no name yet. -/
  | unnamedReference
  | unknownApiVersion (version : String)
  deriving DecidableEq, Repr

def EmitError.message : EmitError → String
  | operation cause => cause.message
  | unnamedReference => "failed to serialize output: class reference was never finalized"
  | unknownApiVersion version => "no input declares api version `" ++ version ++ "`"

end WireSchema
