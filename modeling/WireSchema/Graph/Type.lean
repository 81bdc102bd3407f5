import WireSchema.Json.Printer
import WireSchema.OrderedMap

/-! The declarations of a type graph: scalars, models, arrays, unions, enumerations and links to
properties. Declarations refer to each other by name, so a graph may be cyclic. -/
namespace WireSchema

inductive Visibility where
  | read
  | create
  | update
  | delete
  | query
  deriving DecidableEq, Repr

namespace Visibility

def name : Visibility → String
  | read => "read"
  | create => "create"
  | update => "update"
  | delete => "delete"
  | query => "query"

def all : List Visibility := [read, create, update, delete, query]

end Visibility

inductive CollectionFormat where
  | csv
  | ssv
  | tsv
  | pipes
  | multi
  | simple
  | form
  deriving DecidableEq, Repr

namespace CollectionFormat

def name : CollectionFormat → String
  | csv => "csv"
  | ssv => "ssv"
  | tsv => "tsv"
  | pipes => "pipes"
  | multi => "multi"
  | simple => "simple"
  | form => "form"

def all : List CollectionFormat := [csv, ssv, tsv, pipes, multi, simple, form]

end CollectionFormat

/-- A type where it is used: the name of a declaration or of a type known to every graph, or a
value that stands for itself. -/
inductive TypeRef where
  | named (name : String)
  | literal (value : Json)
  deriving Repr

namespace TypeRef

def text : TypeRef → String
  | named name => name
  | literal value => value.compact

/-- References are the same if they have one name or equal values. -/
def same : TypeRef → TypeRef → Bool
  | named a, named b => a == b
  | literal a, literal b => a.same b
  | _, _ => false

end TypeRef

structure Constraints where
  pattern : Option String := none
  minLength : Option Nat := none
  maxLength : Option Nat := none
  minValue : Option Binary64 := none
  maxValue : Option Binary64 := none
  minValueExclusive : Option Binary64 := none
  maxValueExclusive : Option Binary64 := none
  multipleOf : Option Binary64 := none
  minItems : Option Nat := none
  maxItems : Option Nat := none
  uniqueItems : Option Bool := none
  minProperties : Option Nat := none
  maxProperties : Option Nat := none
  /-- The kind of text, such as `uuid` or `arm-id`. -/
  format : Option String := none
  /-- The way a value is encoded, such as `rfc7231` or `base64url`. -/
  encode : Option String := none
  secret : Bool := false
  deriving Repr

structure ScalarType where
  name : String := ""
  base : Option String := none
  constraints : Constraints := {}
  deriving Repr

structure Property where
  type : TypeRef
  optional : Bool := false
  /-- The visibilities in which the property is there; all of them if nothing is said. -/
  visibility : Option (List Visibility) := none
  description : Option String := none
  default : Option Json := none
  clientFlatten : Bool := false
  collectionFormat : Option CollectionFormat := none
  constraints : Constraints := {}
  deriving Repr

namespace Property

def isVisible (property : Property) (v : Visibility) : Bool :=
  match property.visibility with
  | none => true
  | some visible => visible.contains v

/-- Seen in responses only. -/
def isReadOnly (property : Property) : Bool :=
  match property.visibility with
  | some [.read] => true
  | _ => false

end Property

/-- Where a page holds its items and the link to the next page. -/
structure Paging where
  nextLinkSegments : List String := []
  itemSegments : List String := []
  deriving Repr

structure ModelType where
  name : String := ""
  base : Option String := none
  properties : OrderedMap String Property := .empty
  /-- The property that tells the derived models apart. -/
  discriminator : Option String := none
  derived : List String := []
  /-- The type of the values under any other key. -/
  indexer : Option TypeRef := none
  /-- A template stands for its instances and is never a value's own model. -/
  template : Bool := false
  templateArgs : List TypeRef := []
  /-- A managed identity, which has a type tag of its own. -/
  identity : Bool := false
  paged : Option Paging := none
  constraints : Constraints := {}

namespace ModelType

/-- A model that is nothing but a map from texts to values of one type. -/
def isRecord (model : ModelType) : Bool :=
  model.indexer.isSome && model.properties.isEmpty && model.base.isNone

end ModelType

structure ArrayType where
  name : String := ""
  item : TypeRef
  constraints : Constraints := {}
  deriving Repr

structure UnionType where
  name : String := ""
  variants : List TypeRef
  deriving Repr

structure EnumMember where
  name : String
  /-- The member's value; its name if nothing is said. -/
  value : Option Json := none
  deriving Repr

def EnumMember.resolved (member : EnumMember) : Json := member.value.getD (.string member.name)

structure EnumType where
  name : String := ""
  members : List EnumMember
  deriving Repr

def EnumType.values (decl : EnumType) : List Json := decl.members.map EnumMember.resolved

/-- A property of a model, used as a type. -/
structure PropertyLink where
  model : String
  property : String
  deriving Repr

inductive Declaration where
  | scalar (decl : ScalarType)
  | model (decl : ModelType)
  | array (decl : ArrayType)
  | union (decl : UnionType)
  | enum (decl : EnumType)
  | property (link : PropertyLink)

def Declaration.kind : Declaration → String
  | scalar _ => "scalar"
  | model _ => "model"
  | array _ => "array"
  | union _ => "union"
  | enum _ => "enum"
  | property _ => "property"

end WireSchema
