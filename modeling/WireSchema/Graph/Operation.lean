import WireSchema.Graph.Type

/-! The operations of a service and the service itself, as a type graph declares them. -/
namespace WireSchema

inductive Verb where
  | get
  | put
  | post
  | delete
  | patch
  | head
  | options
  deriving DecidableEq, Repr

namespace Verb

def name : Verb → String
  | get => "get"
  | put => "put"
  | post => "post"
  | delete => "delete"
  | patch => "patch"
  | head => "head"
  | options => "options"

def all : List Verb := [get, put, post, delete, patch, head, options]

end Verb

inductive Location where
  | path
  | query
  | header
  deriving DecidableEq, Repr

namespace Location

def name : Location → String
  | path => "path"
  | query => "query"
  | header => "header"

def all : List Location := [path, query, header]

end Location

structure Parameter where
  name : String
  location : Location
  type : TypeRef
  optional : Bool := false
  description : Option String := none
  default : Option Json := none
  collectionFormat : Option CollectionFormat := none
  /-- The value is put into the address as it is. -/
  allowReserved : Bool := false
  constraints : Constraints := {}
  deriving Repr

structure BodyDecl where
  name : Option String := none
  type : TypeRef
  contentTypes : List String := []
  optional : Bool := false
  /-- The body is a property that is marked as the body. -/
  explicit : Bool := false
  description : Option String := none
  deriving Repr

inductive Status where
  | code (code : Nat)
  | range (first last : Nat)
  | other (text : String)
  deriving DecidableEq, Repr

def Status.text : Status → String
  | code n => toString n
  | range first last => toString first ++ "-" ++ toString last
  | other text => text

structure HeaderDecl where
  name : String
  type : Option TypeRef := none
  deriving Repr

structure ResponseDecl where
  status : Option Status := none
  type : Option TypeRef := none
  description : Option String := none
  headers : List HeaderDecl := []
  contentTypes : List String := []
  deriving Repr

structure LongRunningDecl where
  finalStateVia : Option String := none
  deriving Repr

structure Operation where
  name : String
  /-- The interface or namespace that declares the operation. -/
  container : String := ""
  verb : Verb
  path : String
  description : Option String := none
  parameters : List Parameter := []
  body : Option BodyDecl := none
  responses : List ResponseDecl := []
  longRunning : Option LongRunningDecl := none
  /-- Operations with one path are told apart by the query. -/
  sharedRoute : Bool := false
  deriving Repr

structure HostParameter where
  type : TypeRef
  description : Option String := none
  allowReserved : Bool := false
  deriving Repr

structure Server where
  url : String
  parameters : OrderedMap String HostParameter := .empty

structure Service where
  title : String := ""
  apiVersion : Option String := none
  server : Option Server := none

end WireSchema
