import WireSchema.Graph.Type

/-! Wire schemas: the trees that describe payloads and parameters on the wire. An object that occurs
more than once stands in the tree once and is referred to from its other places by its class. -/
namespace WireSchema

abbrev Slot := Nat

/-- The class of an object, or a reference to one. The name of a shared class is known only when
its pass has ended; an external class is defined elsewhere. -/
inductive ClassRef where
  | shared (slot : Slot) (name : Option String)
  | external (name : String)
  deriving DecidableEq, Repr

def ClassRef.name? : ClassRef → Option String
  | shared _ name => name
  | external name => some name

inductive StringType where
  | string
  | byte
  | uuid
  | password
  | date
  | dateTime
  | time
  | duration
  | resourceId
  | resourceLocation
  deriving DecidableEq, Repr

namespace StringType

def tag : StringType → String
  | string => "string"
  | byte => "byte"
  | uuid => "uuid"
  | password => "password"
  | date => "date"
  | dateTime => "date-time"
  | time => "time"
  | duration => "duration"
  | resourceId => "ResourceId"
  | resourceLocation => "ResourceLocation"

def all : List StringType :=
  [string, byte, uuid, password, date, dateTime, time, duration, resourceId, resourceLocation]

end StringType

inductive IntegerType where
  | integer
  | integer32
  | integer64
  deriving DecidableEq, Repr

namespace IntegerType

def tag : IntegerType → String
  | integer => "integer"
  | integer32 => "integer32"
  | integer64 => "integer64"

def all : List IntegerType := [integer, integer32, integer64]

end IntegerType

inductive FloatType where
  | float
  | float32
  | float64
  deriving DecidableEq, Repr

namespace FloatType

def tag : FloatType → String
  | float => "float"
  | float32 => "float32"
  | float64 => "float64"

def all : List FloatType := [float, float32, float64]

end FloatType

structure StringFormat where
  pattern : Option String := none
  maxLength : Option Nat := none
  minLength : Option Nat := none
  deriving DecidableEq, Repr

structure IntegerFormat where
  maximum : Option Int := none
  minimum : Option Int := none
  multipleOf : Option Int := none
  deriving DecidableEq, Repr

structure FloatFormat where
  maximum : Option Binary64 := none
  minimum : Option Binary64 := none
  exclusiveMaximum : Bool := false
  exclusiveMinimum : Bool := false
  multipleOf : Option Binary64 := none
  deriving DecidableEq, Repr

structure ObjectFormat where
  maxProperties : Option Nat := none
  minProperties : Option Nat := none
  deriving DecidableEq, Repr

structure ArrayFormat where
  maxLength : Option Nat := none
  minLength : Option Nat := none
  unique : Bool := false
  collection : Option CollectionFormat := none
  deriving DecidableEq, Repr

mutual

/-- What a schema describes. Only texts and integers can be limited to listed values. -/
inductive SchemaKind where
  | string (type : StringType) (format : Option StringFormat) (values : Option (List Json))
  | integer (type : IntegerType) (format : Option IntegerFormat) (values : Option (List Json))
  | float (type : FloatType) (format : Option FloatFormat)
  | boolean
  | object (object : ObjectSchema)
  | array (format : Option ArrayFormat) (item : Option Schema)
  | reference (target : ClassRef)

structure ObjectSchema where
  /-- A managed identity has a type tag of its own. -/
  identity : Bool := false
  format : Option ObjectFormat := none
  props : List NamedSchema := []
  variants : List Variant := []
  additional : Option Additional := none
  label : Option ClassRef := none

/-- A schema without a name: the items of an array, the body of a response. -/
structure Schema where
  kind : SchemaKind
  readOnly : Bool := false
  nullable : Bool := false
  isConst : Bool := false
  default : Option Json := none

structure NamedSchema where
  name : String
  schema : Schema
  required : Bool := false
  description : Option String := none
  secret : Bool := false
  skipUrlEncoding : Bool := false
  clientFlatten : Bool := false

/-- What an object has besides its common properties if the property `property` has the value
`value`. -/
structure Variant where
  property : String
  value : String
  format : Option ObjectFormat := none
  props : List NamedSchema := []
  variants : List Variant := []

inductive Additional where
  | anything
  | items (item : Option Schema)

end

namespace SchemaKind

def tag : SchemaKind → String
  | string type _ _ => type.tag
  | integer type _ _ => type.tag
  | float type _ => type.tag
  | boolean => "boolean"
  | object o => if o.identity then "IdentityObject" else "object"
  | array _ _ => "array"
  | reference target => "@" ++ target.name?.getD ""

def withValues? (kind : SchemaKind) (values : List Json) : Option SchemaKind :=
  match kind with
  | string type format _ => some (string type format (some values))
  | integer type format _ => some (integer type format (some values))
  | _ => none

def ofStringType (type : StringType) : SchemaKind := string type none none
def ofIntegerType (type : IntegerType) : SchemaKind := integer type none none
def ofFloatType (type : FloatType) : SchemaKind := float type none

def isObjectLike : SchemaKind → Bool
  | object _ => true
  | reference _ => true
  | _ => false

end SchemaKind

namespace Schema

def ofKind (kind : SchemaKind) : Schema := { kind }

def anyObject : Schema := ofKind (.object { additional := some .anything })

end Schema
end WireSchema
