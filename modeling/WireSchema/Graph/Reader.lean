import WireSchema.Document.Record
import WireSchema.Graph

/-! Reading the parts of a type graph out of a document. Declarations, properties and the extra
fields of parameters are read from the settled document, because their kind has to be known first;
everything else is read as it is written. -/
namespace WireSchema

open Node (text? bool? word? number? listOf? json? mapOf?)

def Visibility.ofNode? (medium : Medium) : Node → Option Visibility :=
  medium.choice? (Visibility.all.map fun v => (v.name, v))

def CollectionFormat.ofNode? (medium : Medium) : Node → Option CollectionFormat :=
  medium.choice? (CollectionFormat.all.map fun f => (f.name, f))

def Verb.ofNode? (medium : Medium) : Node → Option Verb :=
  medium.choice? (Verb.all.map fun v => (v.name, v))

def Location.ofNode? (medium : Medium) : Node → Option Location :=
  medium.choice? (Location.all.map fun l => (l.name, l))

namespace TypeRef

def ofSettled? : Node → Option TypeRef
  | .text name => some (.named name)
  | .map entries => do
    let fields ← Fields.ofNode? .settled ["literal"] (.map entries)
    return .literal (← fields.required? "literal" json?)
  | _ => none

def ofNode? (node : Node) : Option TypeRef := node.settle.bind ofSettled?

end TypeRef

namespace Constraints

def fieldNames : List String := [
  "pattern", "minLength", "maxLength", "minValue", "maxValue", "minValueExclusive",
  "maxValueExclusive", "multipleOf", "minItems", "maxItems", "uniqueItems", "minProperties",
  "maxProperties", "format", "encode", "secret"]

def ofFields? (fields : Fields) : Option Constraints := do
  let optional {α : Type} (name : String) (read : Node → Option α) : Option (Option α) :=
    fields.default? name none (·.optional? read)
  return {
    pattern := ← optional "pattern" text?
    minLength := ← optional "minLength" word?
    maxLength := ← optional "maxLength" word?
    minValue := ← optional "minValue" number?
    maxValue := ← optional "maxValue" number?
    minValueExclusive := ← optional "minValueExclusive" number?
    maxValueExclusive := ← optional "maxValueExclusive" number?
    multipleOf := ← optional "multipleOf" number?
    minItems := ← optional "minItems" word?
    maxItems := ← optional "maxItems" word?
    uniqueItems := ← optional "uniqueItems" bool?
    minProperties := ← optional "minProperties" word?
    maxProperties := ← optional "maxProperties" word?
    format := ← optional "format" text?
    encode := ← optional "encode" text?
    secret := ← fields.default? "secret" false bool? }

def ofNode? (medium : Medium) (node : Node) : Option Constraints :=
  (Fields.ofNode? medium fieldNames node).bind ofFields?

def ofRest? (rest : List (String × Node)) : Option Constraints :=
  ofNode? .settled (.map (rest.map fun (k, v) => (.text k, v)))

end Constraints

namespace Property

def fieldNames : List String :=
  ["type", "optional", "visibility", "description", "default", "clientFlatten", "collectionFormat"]

def ofSettled? (node : Node) : Option Property := do
  let (fields, rest) ← Fields.ofOpenNode? .settled fieldNames node
  return {
    type := ← fields.required? "type" TypeRef.ofNode?
    optional := ← fields.default? "optional" false bool?
    visibility := ← fields.optional? "visibility" (listOf? (Visibility.ofNode? .settled))
    description := ← fields.optional? "description" text?
    default := ← fields.optional? "default" json?
    clientFlatten := ← fields.default? "clientFlatten" false bool?
    collectionFormat := ← fields.optional? "collectionFormat" (CollectionFormat.ofNode? .settled)
    constraints := ← Constraints.ofRest? rest }

end Property

namespace Declaration

def scalar? (node : Node) : Option ScalarType := do
  let (fields, rest) ← Fields.ofOpenNode? .settled ["name", "base"] node
  return {
    name := ← fields.default? "name" "" text?
    base := ← fields.optional? "base" text?
    constraints := ← Constraints.ofRest? rest }

def paging? (node : Node) : Option Paging := do
  let fields ← Fields.ofNode? .settled ["nextLinkSegments", "itemSegments"] node
  return {
    nextLinkSegments := ← fields.default? "nextLinkSegments" [] (listOf? text?)
    itemSegments := ← fields.default? "itemSegments" [] (listOf? text?) }

def modelFieldNames : List String := [
  "name", "base", "properties", "discriminator", "derived", "indexer", "template", "templateArgs",
  "identity", "paged"]

def model? (node : Node) : Option ModelType := do
  let (fields, rest) ← Fields.ofOpenNode? .settled modelFieldNames node
  return {
    name := ← fields.default? "name" "" text?
    base := ← fields.optional? "base" text?
    properties := ← fields.default? "properties" .empty (mapOf? Property.ofSettled?)
    discriminator := ← fields.optional? "discriminator" text?
    derived := ← fields.default? "derived" [] (listOf? text?)
    indexer := ← fields.optional? "indexer" TypeRef.ofNode?
    template := ← fields.default? "template" false bool?
    templateArgs := ← fields.default? "templateArgs" [] (listOf? TypeRef.ofNode?)
    identity := ← fields.default? "identity" false bool?
    paged := ← fields.optional? "paged" paging?
    constraints := ← Constraints.ofRest? rest }

def array? (node : Node) : Option ArrayType := do
  let (fields, rest) ← Fields.ofOpenNode? .settled ["name", "item"] node
  return {
    name := ← fields.default? "name" "" text?
    item := ← fields.required? "item" TypeRef.ofNode?
    constraints := ← Constraints.ofRest? rest }

def union? (node : Node) : Option UnionType := do
  let fields ← Fields.ofNode? .settled ["name", "variants"] node
  return {
    name := ← fields.default? "name" "" text?
    variants := ← fields.required? "variants" (listOf? TypeRef.ofNode?) }

def member? (node : Node) : Option EnumMember := do
  let fields ← Fields.ofNode? .settled ["name", "value"] node
  return {
    name := ← fields.required? "name" text?
    value := ← fields.optional? "value" json? }

def enum? (node : Node) : Option EnumType := do
  let fields ← Fields.ofNode? .settled ["name", "members"] node
  return {
    name := ← fields.default? "name" "" text?
    members := ← fields.required? "members" (listOf? member?) }

def link? (node : Node) : Option PropertyLink := do
  let fields ← Fields.ofNode? .settled ["model", "property"] node
  return {
    model := ← fields.required? "model" text?
    property := ← fields.required? "property" text? }

def ofKind? (kind : String) (node : Node) : Option Declaration :=
  match kind with
  | "scalar" => (scalar? node).map .scalar
  | "model" => (model? node).map .model
  | "array" => (array? node).map .array
  | "union" => (union? node).map .union
  | "enum" => (enum? node).map .enum
  | "property" => (link? node).map .property
  | _ => none

def isKindKey (key : Node) : Bool :=
  match key.settle with
  | some (.text "kind") => true
  | _ => false

/-- A declaration is a mapping with a field `kind`, or a list that starts with the kind. -/
def ofNode? : Node → Option Declaration
  | .map entries =>
    match entries.filter (isKindKey ·.1) with
    | [(_, kind)] => do
      let rest ← (Node.map (entries.filter (!isKindKey ·.1))).settle
      ofKind? (← kind.text?) rest
    | _ => none
  | .list (kind :: items) => do
    let rest ← (Node.list items).settle
    ofKind? (← kind.text?) rest
  | .tagged tag content => if Node.isLocalTag tag then none else ofNode? content
  | _ => none

end Declaration

namespace HostParameter

def ofNode? (medium : Medium) (node : Node) : Option HostParameter := do
  let fields ← Fields.ofNode? medium ["type", "description", "allowReserved"] node
  return {
    type := ← fields.required? "type" TypeRef.ofNode?
    description := ← fields.optional? "description" text?
    allowReserved := ← fields.default? "allowReserved" false bool? }

end HostParameter

namespace Server

def ofNode? (medium : Medium) (node : Node) : Option Server := do
  let fields ← Fields.ofNode? medium ["url", "parameters"] node
  return {
    url := ← fields.required? "url" text?
    parameters := ← fields.default? "parameters" .empty (mapOf? (HostParameter.ofNode? medium)) }

end Server

namespace Service

def ofNode? (medium : Medium) (node : Node) : Option Service := do
  let fields ← Fields.ofNode? medium ["title", "apiVersion", "server"] node
  return {
    title := ← fields.default? "title" "" text?
    apiVersion := ← fields.optional? "apiVersion" text?
    server := ← fields.optional? "server" (Server.ofNode? medium) }

end Service

namespace Parameter

def fieldNames : List String := [
  "name", "in", "type", "optional", "description", "default", "collectionFormat", "allowReserved"]

def ofNode? (medium : Medium) (node : Node) : Option Parameter := do
  let (fields, rest) ← Fields.ofOpenNode? medium fieldNames node
  return {
    name := ← fields.required? "name" text?
    location := ← fields.required? "in" (Location.ofNode? medium)
    type := ← fields.required? "type" TypeRef.ofNode?
    optional := ← fields.default? "optional" false bool?
    description := ← fields.optional? "description" text?
    default := ← fields.optional? "default" json?
    collectionFormat := ← fields.optional? "collectionFormat" (CollectionFormat.ofNode? medium)
    allowReserved := ← fields.default? "allowReserved" false bool?
    constraints := ← Constraints.ofRest? rest }

end Parameter

namespace BodyDecl

def fieldNames : List String :=
  ["name", "type", "contentTypes", "optional", "explicit", "description"]

def ofNode? (medium : Medium) (node : Node) : Option BodyDecl := do
  let fields ← Fields.ofNode? medium fieldNames node
  return {
    name := ← fields.optional? "name" text?
    type := ← fields.required? "type" TypeRef.ofNode?
    contentTypes := ← fields.default? "contentTypes" [] (listOf? text?)
    optional := ← fields.default? "optional" false bool?
    explicit := ← fields.default? "explicit" false bool?
    description := ← fields.optional? "description" text? }

end BodyDecl

namespace Status

def code? : Node → Option Nat := Node.natUpTo? (Nat.pow 2 16 - 1)

def ofSettled? : Node → Option Status
  | .text s => some (.other s)
  | .map entries => do
    let fields ← Fields.ofNode? .settled ["start", "end"] (.map entries)
    return .range (← fields.required? "start" code?) (← fields.required? "end" code?)
  | node => (code? node).map .code

def ofNode? (node : Node) : Option Status := node.settle.bind ofSettled?

end Status

namespace HeaderDecl

def ofNode? (medium : Medium) (node : Node) : Option HeaderDecl := do
  let fields ← Fields.ofNode? medium ["name", "type"] node
  return {
    name := ← fields.required? "name" text?
    type := ← fields.optional? "type" TypeRef.ofNode? }

end HeaderDecl

namespace ResponseDecl

def fieldNames : List String := ["status", "type", "description", "headers", "contentTypes"]

def ofNode? (medium : Medium) (node : Node) : Option ResponseDecl := do
  let fields ← Fields.ofNode? medium fieldNames node
  return {
    status := ← fields.optional? "status" Status.ofNode?
    type := ← fields.optional? "type" TypeRef.ofNode?
    description := ← fields.optional? "description" text?
    headers := ← fields.default? "headers" [] (listOf? (HeaderDecl.ofNode? medium))
    contentTypes := ← fields.default? "contentTypes" [] (listOf? text?) }

end ResponseDecl

namespace LongRunningDecl

def ofNode? (medium : Medium) (node : Node) : Option LongRunningDecl := do
  let fields ← Fields.ofNode? medium ["finalStateVia"] node
  return { finalStateVia := ← fields.optional? "finalStateVia" text? }

end LongRunningDecl

namespace Operation

def fieldNames : List String := [
  "name", "container", "verb", "path", "description", "parameters", "body", "responses", "lro",
  "sharedRoute"]

def ofNode? (medium : Medium) (node : Node) : Option Operation := do
  let fields ← Fields.ofNode? medium fieldNames node
  return {
    name := ← fields.required? "name" text?
    container := ← fields.default? "container" "" text?
    verb := ← fields.required? "verb" (Verb.ofNode? medium)
    path := ← fields.required? "path" text?
    description := ← fields.optional? "description" text?
    parameters := ← fields.default? "parameters" [] (listOf? (Parameter.ofNode? medium))
    body := ← fields.optional? "body" (BodyDecl.ofNode? medium)
    responses := ← fields.default? "responses" [] (listOf? (ResponseDecl.ofNode? medium))
    longRunning := ← fields.optional? "lro" (LongRunningDecl.ofNode? medium)
    sharedRoute := ← fields.default? "sharedRoute" false bool? }

end Operation

namespace TypeGraph

def ofNode? (medium : Medium) (node : Node) : Option TypeGraph := do
  let fields ← Fields.ofNode? medium ["version", "service", "types", "operations"] node
  return {
    version := ← fields.required? "version" text?
    service := ← fields.default? "service" {} (Service.ofNode? medium)
    types := ← fields.default? "types" .empty (mapOf? Declaration.ofNode?)
    operations := ← fields.default? "operations" [] (listOf? (Operation.ofNode? medium)) }

def isSupported (version : String) : Bool := version.startsWith "1."

def load (format : TextFormat) (medium : Medium) (document : Option Node) :
    Except LoadError TypeGraph :=
  match document.bind (ofNode? medium) with
  | none => .error (.malformed format)
  | some graph =>
    if isSupported graph.version then .ok graph else .error (.unsupportedVersion graph.version)

end TypeGraph
end WireSchema
