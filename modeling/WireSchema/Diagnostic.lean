/-! Reports about inputs that can be converted only in part. They do not end a conversion. -/
namespace WireSchema

inductive DiagnosticCode where
  | duplicatedSuccess2xx
  | duplicatedSuccess202
  | duplicatedSuccess204
  | duplicatedRedirect
  | missingStatusCodes
  | duplicateBodyTypes
  | unsupportedType
  | unionNull
  | unionUnsupported
  | unsupportedStatusCodeRange
  | missingHostParameter
  | unexpectedVerb
  deriving DecidableEq, Repr

namespace DiagnosticCode

def name : DiagnosticCode → String
  | duplicatedSuccess2xx => "duplicated-success-2xx"
  | duplicatedSuccess202 => "duplicated-success-202"
  | duplicatedSuccess204 => "duplicated-success-204"
  | duplicatedRedirect => "duplicated-redirect"
  | missingStatusCodes => "missing-status-codes"
  | duplicateBodyTypes => "duplicate-body-types"
  | unsupportedType => "unsupported-type"
  | unionNull => "union-null"
  | unionUnsupported => "union-unsupported"
  | unsupportedStatusCodeRange => "unsupported-status-code-range"
  | missingHostParameter => "missing-host-parameter"
  | unexpectedVerb => "unexpected-verb"

def all : List DiagnosticCode := [
  duplicatedSuccess2xx, duplicatedSuccess202, duplicatedSuccess204, duplicatedRedirect,
  missingStatusCodes, duplicateBodyTypes, unsupportedType, unionNull, unionUnsupported,
  unsupportedStatusCodeRange, missingHostParameter, unexpectedVerb]

end DiagnosticCode

structure Diagnostic where
  code : DiagnosticCode
  message : String
  /-- The operation or type that the report is about. -/
  target : String
  deriving DecidableEq, Repr

def Diagnostic.line (d : Diagnostic) : String :=
  "[" ++ d.code.name ++ "] " ++ d.target ++ ": " ++ d.message

abbrev Diagnostics := List Diagnostic

namespace Diagnostics

def report (ds : Diagnostics) (code : DiagnosticCode) (target message : String) : Diagnostics :=
  ds ++ [⟨code, message, target⟩]

def has (ds : Diagnostics) (code : DiagnosticCode) : Bool := ds.any (·.code == code)

end Diagnostics
end WireSchema
