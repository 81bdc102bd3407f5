import WireSchema.Schema

/-! The JSON form of schemas. The type tag comes first, after the name if there is one. Flags that
are not set and parts that are empty are left out. A class reference that has no name yet has no
JSON form. -/
namespace WireSchema

open Json (optionalField flagField)

def natField (key : String) (value : Option Nat) : List (String × Json) :=
  optionalField key (value.map fun n => .integer n)

def textField (key : String) (value : Option String) : List (String × Json) :=
  optionalField key (value.map .string)

def listField (key : String) (items : List Json) : List (String × Json) :=
  if items.isEmpty then [] else [(key, .array items)]

def StringFormat.json (f : StringFormat) : Json :=
  .object (textField "pattern" f.pattern ++ natField "maxLength" f.maxLength ++
    natField "minLength" f.minLength)

def IntegerFormat.json (f : IntegerFormat) : Json :=
  .object (optionalField "maximum" (f.maximum.map .integer) ++
    optionalField "minimum" (f.minimum.map .integer) ++
    optionalField "multipleOf" (f.multipleOf.map .integer))

def FloatFormat.json (f : FloatFormat) : Json :=
  .object (optionalField "maximum" (f.maximum.map .float) ++
    optionalField "minimum" (f.minimum.map .float) ++
    flagField "exclusiveMaximum" f.exclusiveMaximum ++
    flagField "exclusiveMinimum" f.exclusiveMinimum ++
    optionalField "multipleOf" (f.multipleOf.map .float))

def ObjectFormat.json (f : ObjectFormat) : Json :=
  .object (natField "maxProperties" f.maxProperties ++ natField "minProperties" f.minProperties)

def ArrayFormat.json (f : ArrayFormat) : Json :=
  .object (natField "maxLength" f.maxLength ++ natField "minLength" f.minLength ++
    flagField "unique" f.unique ++
    textField "strFormat" (f.collection.map CollectionFormat.name))

def valueJson (value : Json) : Json := .object [("value", value)]

def valuesJson (values : List Json) : Json := .object [("items", .array (values.map valueJson))]

def typeField (kind : SchemaKind) : String × Json := ("type", .string kind.tag)

mutual

def SchemaKind.fields? : SchemaKind → Option (List (String × Json))
  | .string type format values =>
    some (typeField (.string type format values) ::
      optionalField "format" (format.map StringFormat.json) ++
      optionalField "enum" (values.map valuesJson))
  | .integer type format values =>
    some (typeField (.integer type format values) ::
      optionalField "format" (format.map IntegerFormat.json) ++
      optionalField "enum" (values.map valuesJson))
  | .float type format =>
    some (typeField (.float type format) :: optionalField "format" (format.map FloatFormat.json))
  | .boolean => some [typeField .boolean]
  | .object o => do
    let fields ← o.fields?
    return typeField (.object o) :: fields
  | .array format item => do
    let item ← optionalSchemaField? "item" item
    return typeField (.array format none) ::
      optionalField "format" (format.map ArrayFormat.json) ++ item
  | .reference target => if target.name?.isSome then some [typeField (.reference target)] else none

def ObjectSchema.fields? : ObjectSchema → Option (List (String × Json))
  | ⟨_, format, props, variants, additional, label⟩ => do
    let props ← propsJson? props
    let variants ← variantsJson? variants
    let additional ← additionalField? additional
    return optionalField "format" (format.map ObjectFormat.json) ++ listField "props" props ++
      listField "discriminators" variants ++ additional ++
      textField "cls" (label.bind ClassRef.name?)

def Schema.fields? : Schema → Option (List (String × Json))
  | ⟨kind, readOnly, nullable, isConst, default⟩ => do
    let fields ← kind.fields?
    return fields ++ flagField "readOnly" readOnly ++ flagField "nullable" nullable ++
      flagField "const" isConst ++ optionalField "default" (default.map valueJson)

def NamedSchema.fields? : NamedSchema → Option (List (String × Json))
  | ⟨name, schema, required, description, secret, skipUrlEncoding, clientFlatten⟩ => do
    let fields ← schema.fields?
    return ("name", .string name) :: fields ++ flagField "required" required ++
      textField "description" description ++ flagField "secret" secret ++
      flagField "skipUrlEncoding" skipUrlEncoding ++ flagField "clientFlatten" clientFlatten

def Variant.fields? : Variant → Option (List (String × Json))
  | ⟨property, value, format, props, variants⟩ => do
    let props ← propsJson? props
    let variants ← variantsJson? variants
    return ("property", .string property) :: ("value", .string value) ::
      optionalField "format" (format.map ObjectFormat.json) ++ listField "props" props ++
      listField "discriminators" variants

def Additional.fields? : Additional → Option (List (String × Json))
  | .anything => some [("anyType", .bool true)]
  | .items item => optionalSchemaField? "item" item

def optionalSchemaField? (key : String) : Option Schema → Option (List (String × Json))
  | none => some []
  | some schema => do
    let fields ← schema.fields?
    return [(key, .object fields)]

def additionalField? : Option Additional → Option (List (String × Json))
  | none => some []
  | some additional => do
    let fields ← additional.fields?
    return [("additionalProps", .object fields)]

def propsJson? : List NamedSchema → Option (List Json)
  | [] => some []
  | prop :: rest => do
    let fields ← prop.fields?
    let rest ← propsJson? rest
    return .object fields :: rest

def variantsJson? : List Variant → Option (List Json)
  | [] => some []
  | variant :: rest => do
    let fields ← variant.fields?
    let rest ← variantsJson? rest
    return .object fields :: rest

end

def Schema.json? (schema : Schema) : Option Json := schema.fields?.map .object

def NamedSchema.json? (schema : NamedSchema) : Option Json := schema.fields?.map .object

end WireSchema
