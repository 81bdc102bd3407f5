import WireSchema.Schema

/-! Formats gathered from constraints. Layers of constraints are taken in order, the most specific
first; a value that is there already stays, and a format without any value is no format. -/
namespace WireSchema

namespace StringFormat

def merge (f : StringFormat) (c : Constraints) : StringFormat where
  pattern := f.pattern.or c.pattern
  maxLength := f.maxLength.or c.maxLength
  minLength := f.minLength.or c.minLength

end StringFormat

namespace IntegerFormat

/-- The upper bound of a layer. An exclusive bound becomes the next integer below it, and a bound
beyond 64 bits becomes the outermost integer. -/
def upper (c : Constraints) : Option Int :=
  (c.maxValue.map Binary64.floorInt64).or
    (c.maxValueExclusive.map fun v => Binary64.clampInt64 (v.ceilInt64 - 1))

def lower (c : Constraints) : Option Int :=
  (c.minValue.map Binary64.ceilInt64).or
    (c.minValueExclusive.map fun v => Binary64.clampInt64 (v.floorInt64 + 1))

def merge (f : IntegerFormat) (c : Constraints) : IntegerFormat where
  maximum := f.maximum.or (upper c)
  minimum := f.minimum.or (lower c)
  multipleOf := f.multipleOf.or (c.multipleOf.map Binary64.truncInt64)

end IntegerFormat

namespace FloatFormat

def upper (c : Constraints) : Option (Binary64 × Bool) :=
  (c.maxValue.map (·, false)).or (c.maxValueExclusive.map (·, true))

def lower (c : Constraints) : Option (Binary64 × Bool) :=
  (c.minValue.map (·, false)).or (c.minValueExclusive.map (·, true))

/-- Sets the upper bound of a layer unless there is one. The flag is never taken back. -/
def mergeUpper (f : FloatFormat) (c : Constraints) : FloatFormat :=
  match f.maximum, upper c with
  | none, some (bound, exclusive) =>
    { f with maximum := some bound, exclusiveMaximum := f.exclusiveMaximum || exclusive }
  | _, _ => f

def mergeLower (f : FloatFormat) (c : Constraints) : FloatFormat :=
  match f.minimum, lower c with
  | none, some (bound, exclusive) =>
    { f with minimum := some bound, exclusiveMinimum := f.exclusiveMinimum || exclusive }
  | _, _ => f

def merge (f : FloatFormat) (c : Constraints) : FloatFormat :=
  let f := (f.mergeUpper c).mergeLower c
  { f with multipleOf := f.multipleOf.or c.multipleOf }

end FloatFormat

namespace ObjectFormat

def merge (f : ObjectFormat) (c : Constraints) : ObjectFormat where
  maxProperties := f.maxProperties.or c.maxProperties
  minProperties := f.minProperties.or c.minProperties

end ObjectFormat

namespace ArrayFormat

def merge (f : ArrayFormat) (c : Constraints) : ArrayFormat :=
  { f with
    maxLength := f.maxLength.or c.maxItems
    minLength := f.minLength.or c.minItems
    unique := f.unique || c.uniqueItems == some true }

def withCollection (f : ArrayFormat) (collection : Option CollectionFormat) : ArrayFormat :=
  { f with collection := f.collection.or collection }

end ArrayFormat

def nonEmptyFormat {φ : Type} [DecidableEq φ] (empty format : φ) : Option φ :=
  if format = empty then none else some format

def ObjectFormat.ofLayers (layers : List Constraints) : Option ObjectFormat :=
  nonEmptyFormat {} (layers.foldl ObjectFormat.merge {})

namespace SchemaKind

/-- The kind with its format completed from layers of constraints; only arrays have a collection
format. -/
def harvest (kind : SchemaKind) (layers : List Constraints)
    (collection : Option CollectionFormat) : SchemaKind :=
  match kind with
  | string type format values =>
    string type (nonEmptyFormat {} (layers.foldl StringFormat.merge (format.getD {}))) values
  | integer type format values =>
    integer type (nonEmptyFormat {} (layers.foldl IntegerFormat.merge (format.getD {}))) values
  | float type format =>
    float type (nonEmptyFormat {} (layers.foldl FloatFormat.merge (format.getD {})))
  | array format item =>
    let merged := (layers.foldl ArrayFormat.merge (format.getD {})).withCollection collection
    array (nonEmptyFormat {} merged) item
  | object o =>
    object { o with
      format := nonEmptyFormat {} (layers.foldl ObjectFormat.merge (o.format.getD {})) }
  | boolean => boolean
  | reference target => reference target

end SchemaKind
end WireSchema
