import WireSchema.Document.Plain
import WireSchema.Content
import WireSchema.Convert
import WireSchema.ErrorBody

/-! The responses of an operation: one for success, one each for "accepted", "no content" and
redirects, and one for every declared error. -/
namespace WireSchema

structure ResponseBody where
  /-- Where the value of the body is kept. -/
  var : Option String
  schema : Schema

structure Response where
  statusCodes : Option (List Nat) := none
  isError : Bool := false
  description : Option String := none
  /-- The names of the headers; absent if none are declared. -/
  headers : Option (List String) := none
  body : Option ResponseBody := none

def Response.resolve (names : Slot → Option String) (r : Response) : Response :=
  { r with body := r.body.map fun b => { b with schema := b.schema.resolve names } }

/-- What a status says about the outcome. -/
inductive StatusClass where
  | success (code : Nat)
  | accepted
  | noContent
  | redirect (code : Nat)
  /-- An error; ranges and wildcards have no code. -/
  | error (code : Option Nat)
  deriving DecidableEq, Repr

namespace StatusClass

def ofCode? (code : Nat) : Option StatusClass :=
  if code = 202 then some .accepted
  else if code = 204 then some .noContent
  else if 200 ≤ code ∧ code ≤ 299 then some (.success code)
  else if 300 ≤ code ∧ code ≤ 399 then some (.redirect code)
  else if 100 ≤ code ∧ code ≤ 599 then some (.error (some code))
  else none

/-- A code of at most 16 bits that is written as a text, perhaps with a plus in front. -/
def codeOfText? (text : String) : Option Nat :=
  let digits := match text.toList with
    | '+' :: rest => rest
    | cs => cs
  (Plain.number? 10 digits).filter (· < Nat.pow 2 16)

def ofStatus? : Status → Option StatusClass
  | .code code => ofCode? code
  | .range first last =>
    if first ≤ last ∧ 400 ≤ first ∧ last ≤ 599 then some (.error none) else none
  | .other text =>
    if text = "*" ∨ text = "default" then some (.error none)
    else (codeOfText? text).bind ofCode?

def isError : StatusClass → Bool
  | error _ => true
  | _ => false

end StatusClass

def sameType : Option TypeRef → Option TypeRef → Bool
  | none, none => true
  | some a, some b => a.same b
  | _, _ => false

/-- The responses so far. The success carries the type of its body. -/
structure Buckets where
  success : Option (Response × Option TypeRef) := none
  accepted : Option Response := none
  noContent : Option Response := none
  redirect : Option Response := none
  errors : List Response := []

namespace Buckets

/-- Whether a further response of a class changes nothing about the body. -/
def keepsBody (b : Buckets) (status : StatusClass) (type : Option TypeRef) : Bool :=
  match status with
  | .success _ => b.success.any fun s => sameType s.2 type
  | .accepted => b.accepted.isSome
  | .noContent => b.noContent.isSome
  | .redirect _ => b.redirect.isSome
  | .error _ => false

def ordered (b : Buckets) : List Response :=
  (b.success.map (·.1)).toList ++ b.accepted.toList ++ b.noContent.toList ++ b.redirect.toList ++
    b.errors

def addCode (response : Response) (code : Nat) : Response :=
  let codes := response.statusCodes.getD []
  { response with statusCodes := some (if codes.contains code then codes else codes ++ [code]) }

end Buckets

namespace Converter

/-- Puts a success with those before it. If their bodies differ the latest body and headers stay. -/
def placeSuccess (c : Converter) (b : Buckets) (code : Nat) (response : Response)
    (type : Option TypeRef) : ConvertM Buckets :=
  match b.success with
  | none => return { b with success := some ({ response with statusCodes := some [code] }, type) }
  | some (existing, known) => do
    if sameType known type then
      return { b with success := some (Buckets.addCode existing code, known) }
    else do
      c.report .duplicatedSuccess2xx
        ("2xx responses disagree on body type, `" ++ toString code ++ "` wins")
      let merged := { existing with body := response.body, headers := response.headers }
      return { b with success := some (Buckets.addCode merged code, type) }

/-- The first response of a class that has room for one. -/
def keepFirst (c : Converter) (slot : Option Response) (response : Response)
    (code : DiagnosticCode) : ConvertM (Option Response) :=
  match slot with
  | some first => do
    c.report code "keeping the first declared response"
    return some first
  | none => return some response

def place (c : Converter) (b : Buckets) (status : StatusClass) (response : Response)
    (type : Option TypeRef) : ConvertM Buckets :=
  match status with
  | .success code => c.placeSuccess b code response type
  | .accepted => do
    let accepted ← c.keepFirst b.accepted { response with statusCodes := some [202] }
      .duplicatedSuccess202
    return { b with accepted }
  | .noContent => do
    let noContent ← c.keepFirst b.noContent { response with statusCodes := some [204] }
      .duplicatedSuccess204
    return { b with noContent }
  | .redirect code => do
    let redirect ← c.keepFirst b.redirect { response with statusCodes := some [code] }
      .duplicatedRedirect
    return { b with redirect }
  | .error code =>
    let response := { response with statusCodes := code.map ([·]) }
    return { b with errors := b.errors ++ [response] }

def responseBody (c : Converter) (b : Buckets) (status : StatusClass) (decl : ResponseDecl)
    (statusText : String) : ConvertM (Option Schema) :=
  if status.isError then MonadExcept.ofExcept (ErrorBody.schema? c.graph decl.type statusText)
  else if b.keepsBody status decl.type then return none
  else
    match decl.type with
    | none => return none
    | some type => c.convert type { visibility := .read } []

/-- The types that were declared for each status text, the latest first. -/
abbrev SeenTypes := List (String × Option TypeRef)

def addClassified (c : Converter) (b : Buckets) (seen : SeenTypes) (decl : ResponseDecl)
    (text : String) (status : StatusClass) : ConvertM (Buckets × SeenTypes) := do
  if (seen.lookup text).any fun known => !sameType known decl.type then
    c.report .duplicateBodyTypes ("status `" ++ text ++ "` is declared with different bodies")
  let seen := (text, decl.type) :: seen
  MonadExcept.ofExcept (Content.check decl.contentTypes)
  if decl.type.any (Content.isBytes c.graph) then
    throw (.binaryPayload ("bytes response body for `" ++ text ++ "`"))
  let schema ← c.responseBody b status decl text
  let response : Response := {
    isError := status.isError
    description := decl.description
    headers := if decl.headers.isEmpty then none else some (decl.headers.map (·.name))
    body := schema.map fun schema => ⟨if status.isError then none else some "$Instance", schema⟩ }
  return (← c.place b status response decl.type, seen)

/-- Takes in one declared response. One whose status is missing or unknown is reported. -/
def addResponse (c : Converter) (state : Buckets × SeenTypes) (decl : ResponseDecl) :
    ConvertM (Buckets × SeenTypes) := do
  match decl.status with
  | none =>
    c.report .missingStatusCodes "response has no status code"
    return state
  | some status =>
    match StatusClass.ofStatus? status with
    | none =>
      c.report .unsupportedStatusCodeRange ("cannot classify status `" ++ status.text ++ "`")
      return state
    | some known => c.addClassified state.1 state.2 decl status.text known

def responses (c : Converter) (operation : Operation) : ConvertM (List Response) := do
  let (buckets, _) ← operation.responses.foldlM c.addResponse ({}, [])
  return buckets.ordered

end Converter
end WireSchema
