import WireSchema.ClassTable
import WireSchema.Diagnostic
import WireSchema.Payload
import WireSchema.Scalar

/-! The conversion of types into wire schemas. The first time that a pass meets a model under a
visibility it builds the object; every later time, and while the first is still being built, it
leaves a reference. -/
namespace WireSchema

structure Gathered where
  classes : ClassTable := {}
  diagnostics : Diagnostics := []

/-- A step of a conversion. What has been gathered outlives a failure. -/
abbrev ConvertM := ExceptT ConvertError (StateM Gathered)

namespace ConvertM

def ofResolve {α : Type} : Except ResolveError α → ConvertM α
  | .ok a => pure a
  | .error e => throw (.resolve e)

def keep {α β : Type} (f : α → ConvertM (Option β)) : List α → ConvertM (List β)
  | [] => return []
  | a :: rest => do
    let b ← f a
    let bs ← keep f rest
    return b.toList ++ bs

def visit (type : TypeId) (v : Visibility) : ConvertM (Slot × Nat) :=
  modifyGet fun g =>
    let (slot, classes) := g.classes.enter type v
    ((slot, classes.count slot), { g with classes })

def store (slot : Slot) (body : Schema) : ConvertM Unit :=
  modify fun g => { g with classes := g.classes.store slot body }

end ConvertM

structure Context where
  visibility : Visibility
  collection : Option CollectionFormat := none
  deriving DecidableEq, Repr

def Context.withCollection (ctx : Context) (collection : Option CollectionFormat) : Context :=
  { ctx with collection }

/-- A way to convert types, `none` for one that has no form on the wire. The constraints are those
of the place of use, the most specific first. -/
abbrev TypeStep := TypeRef → Context → List Constraints → ConvertM (Option Schema)

abbrev ModelStep := TypeId → Visibility → List Constraints → ConvertM Schema

/-- A way to find the variants of a host by a property, given the models that have been looked at;
these are returned with the variants. -/
abbrev VariantStep :=
  TypeId → String → Visibility → List TypeId → ConvertM (List Variant × List TypeId)

/-- The kind that a set of values shares. -/
def SchemaKind.ofValues? (values : List Json) : Option SchemaKind :=
  if values.all (·.isString) then some (.ofStringType .string)
  else if values.all (·.isInteger) then some (.ofIntegerType .integer)
  else if values.all (·.isNumber) then some (.ofFloatType .float)
  else if values.all (·.isBool) then some .boolean
  else none

def SchemaKind.admits : SchemaKind → Json → Bool
  | .string .., v => v.isString
  | .integer .., v => v.isInteger
  | .float .., v => v.isNumber
  | .boolean, v => v.isBool
  | _, _ => false

def ScalarChain.schema (chain : ScalarChain) (site : List Constraints) : Schema :=
  .ofKind ((chain.kind site).harvest (site ++ chain.layers) none)

namespace TypeGraph

/-- The one text that a type stands for: a literal, an enumeration of one member, a union of one
such type. Unions are followed `fuel` deep. -/
def singleTextWithin (graph : TypeGraph) : Nat → TypeRef → Option String
  | 0, _ => none
  | fuel + 1, type =>
    match graph.resolve type with
    | .ok (.literal (.string value)) => some value
    | .ok (.declared _ (.enum decl)) =>
      match decl.values with
      | [.string value] => some value
      | _ => none
    | .ok (.declared _ (.union decl)) =>
      match decl.variants with
      | [variant] => graph.singleTextWithin fuel variant
      | _ => none
    | _ => none

def singleText? (graph : TypeGraph) (type : TypeRef) : Option String :=
  graph.singleTextWithin (graph.types.size + 1) type

/-- The value that a derived model pins a discriminator to. -/
def pinnedValue? (graph : TypeGraph) (model : ModelType) (property : String) : Option String :=
  (model.properties.get? property).bind fun decl => graph.singleText? decl.type

/-- Whether the place of use or a scalar on the way to the builtin one is marked secret. -/
def isSecret (graph : TypeGraph) (type : TypeRef) (site : Constraints) : Bool :=
  site.secret ||
    match graph.resolve type with
    | .ok (.declared id (.scalar _)) =>
      match ScalarChain.ofDeclared graph id with
      | .ok chain => chain.isSecret []
      | .error _ => false
    | _ => false

end TypeGraph

/-- The property that tells variants apart: it is required, and limited to the variants' values if
it can be. -/
def NamedSchema.tellingApart (p : NamedSchema) (variants : List Variant) : NamedSchema :=
  let values := variants.map fun v => Json.string v.value
  let limited := if variants.isEmpty then none else p.schema.kind.withValues? values
  { p with required := true, schema := { p.schema with kind := limited.getD p.schema.kind } }

/-- Marks the first property of a name as the one that tells variants apart. Where there is none a
text is added. -/
def markDiscriminator (property : String) (variants : List Variant) :
    List NamedSchema → List NamedSchema
  | [] =>
    let text : NamedSchema := { name := property, schema := .ofKind (.ofStringType .string) }
    [text.tellingApart variants]
  | p :: rest =>
    if p.name = property then p.tellingApart variants :: rest
    else p :: markDiscriminator property variants rest

/-- A graph whose types are converted, and whom reports are about. -/
structure Converter where
  graph : TypeGraph
  target : String

namespace Converter

def report (c : Converter) (code : DiagnosticCode) (message : String) : ConvertM Unit :=
  modify fun g => { g with diagnostics := g.diagnostics.report code c.target message }

def literal (c : Converter) (value : Json) : ConvertM (Option Schema) :=
  match SchemaKind.ofValues? [value] with
  | none => do
    c.report .unsupportedType ("literal `" ++ value.compact ++ "` has no wire representation")
    return none
  | some kind =>
    return some {
      kind := (kind.withValues? [value]).getD kind
      isConst := true
      default := some value }

def intrinsic (c : Converter) (type : Intrinsic) (ref : TypeRef) : ConvertM (Option Schema) :=
  match type with
  | .never | .void => return none
  | .unknown => return some .anyObject
  | .null => do
    c.report .unsupportedType ("`" ++ ref.text ++ "` cannot be used on its own")
    return none

/-- Limits a kind to listed values. Where that cannot be they are left out with a report. -/
def limitTo (c : Converter) (kind : SchemaKind) (values : List Json) (owner : String) :
    ConvertM SchemaKind :=
  match kind.withValues? values with
  | some kind => return kind
  | none => do
    c.report .unsupportedType
      ("`" ++ owner ++ "` values cannot be enumerated on a `" ++ kind.tag ++ "` schema")
    return kind

def enumeration (c : Converter) (decl : EnumType) (site : List Constraints) :
    ConvertM (Option Schema) :=
  match SchemaKind.ofValues? decl.values with
  | none => do
    c.report .unsupportedType ("enum `" ++ decl.name ++ "` mixes value kinds")
    return none
  | some kind => do
    let kind ← c.limitTo kind decl.values decl.name
    return some (.ofKind (kind.harvest site none))

def unsupportedUnion (c : Converter) (decl : UnionType) (variant : TypeRef) :
    ConvertM (Option Schema) := do
  c.report .unionUnsupported
    ("union `" ++ decl.name ++ "` has unsupported variant `" ++ variant.text ++ "`")
  return none

/-- The values and the one scalar among the variants of a union, or the first variant that is
neither. -/
def gatherVariants (graph : TypeGraph) (site : List Constraints) :
    List Json → Option Schema → List (TypeRef × Resolved) →
    Except TypeRef (List Json × Option Schema)
  | values, scalar, [] => .ok (values, scalar)
  | values, scalar, (ref, variant) :: rest =>
    match variant, scalar with
    | .literal value, scalar => gatherVariants graph site (values ++ [value]) scalar rest
    | .declared _ (.enum decl), scalar =>
      gatherVariants graph site (values ++ decl.values) scalar rest
    | .builtin builtin, none =>
      gatherVariants graph site values (some ((ScalarChain.ofBuiltin builtin).schema site)) rest
    | .declared id (.scalar _), none =>
      match ScalarChain.ofDeclared graph id with
      | .ok chain => gatherVariants graph site values (some (chain.schema site)) rest
      | .error _ => .error ref
    | _, _ => .error ref

/-- A union of values and at most one scalar that all of them are values of. -/
def enumUnion (c : Converter) (decl : UnionType) (variants : List (TypeRef × Resolved))
    (site : List Constraints) : ConvertM (Option Schema) :=
  match gatherVariants c.graph site [] none variants with
  | .error ref => c.unsupportedUnion decl ref
  | .ok (values, scalar) =>
    match scalar.or ((SchemaKind.ofValues? values).map .ofKind) with
    | none => return none
    | some schema =>
      if values.all schema.kind.admits then
        if values.isEmpty then return some schema
        else do
          let kind ← c.limitTo schema.kind values decl.name
          return some { schema with kind }
      else
        match variants with
        | (ref, _) :: _ => c.unsupportedUnion decl ref
        | [] => return none

def isNullVariant : Resolved → Bool
  | .intrinsic .null => true
  | .literal .null => true
  | _ => false

/-- The schema of the variants of a union that are not null. One alone stands for itself. -/
def oneOf (c : Converter) (types : TypeStep) (decl : UnionType)
    (variants : List (TypeRef × Resolved)) (ctx : Context) (site : List Constraints) :
    ConvertM (Option Schema) :=
  match variants with
  | [] => do
    c.report .unionNull ("union `" ++ decl.name ++ "` only contains null")
    return none
  | [(ref, _)] => types ref ctx site
  | variants => c.enumUnion decl variants site

/-- Null only says that the other variants may be null. -/
def union (c : Converter) (types : TypeStep) (decl : UnionType) (ctx : Context)
    (site : List Constraints) : ConvertM (Option Schema) := do
  let variants ← ConvertM.ofResolve (decl.variants.mapM fun ref => do
    return (ref, ← c.graph.resolve ref))
  let nullable := variants.any fun v => isNullVariant v.2
  let schema ← c.oneOf types decl (variants.filter fun v => !isNullVariant v.2) ctx site
  return schema.map fun s => { s with nullable := s.nullable || nullable }

def array (types : TypeStep) (decl : ArrayType) (ctx : Context)
    (site : List Constraints) : ConvertM (Option Schema) := do
  let item ← types decl.item (ctx.withCollection none) []
  let kind := SchemaKind.array none item
  return some (.ofKind (kind.harvest (site ++ [decl.constraints]) ctx.collection))

def additional (c : Converter) (types : TypeStep) (model : ModelType) (v : Visibility) :
    ConvertM (Option Additional) :=
  match model.indexer with
  | none => return none
  | some indexer =>
    match c.graph.resolve indexer with
    | .ok (.intrinsic .unknown) => return some .anything
    | _ => return some (.items (← types indexer { visibility := v } []))

/-- A model that is a map is no class: it is an object wherever it occurs. -/
def record (c : Converter) (types : TypeStep) (model : ModelType) (v : Visibility)
    (site : List Constraints) : ConvertM (Option Schema) := do
  let additional ← c.additional types model v
  let kind := SchemaKind.object { additional }
  return some (.ofKind (kind.harvest (site ++ [model.constraints]) none))

/-- A property used as a type adds its constraints to those of the place of use. -/
def linked (c : Converter) (types : TypeStep) (link : PropertyLink) (ctx : Context)
    (site : List Constraints) : ConvertM (Option Schema) := do
  let (_, model) ← ConvertM.ofResolve (c.graph.modelNamed link.model)
  match model.properties.get? link.property with
  | none => throw (.resolve (.unknownProperty link.model link.property))
  | some property =>
    let ctx := ctx.withCollection (ctx.collection.or property.collectionFormat)
    types property.type ctx (site ++ [property.constraints])

def declared (c : Converter) (models : ModelStep) (types : TypeStep) (id : TypeId)
    (decl : Declaration) (ctx : Context) (site : List Constraints) : ConvertM (Option Schema) :=
  match decl with
  | .scalar _ => do
    let chain ← ConvertM.ofResolve (ScalarChain.ofDeclared c.graph id)
    return some (chain.schema site)
  | .model model =>
    if model.isRecord then c.record types model ctx.visibility site
    else return some (← models id ctx.visibility site)
  | .array decl => array types decl ctx site
  | .union decl => c.union types decl ctx site
  | .enum decl => c.enumeration decl site
  | .property link => c.linked types link ctx site

def typeStep (c : Converter) (models : ModelStep) (types : TypeStep) : TypeStep :=
  fun type ctx site => do
    match ← ConvertM.ofResolve (c.graph.resolve type) with
    | .literal value => c.literal value
    | .builtin builtin => return some ((ScalarChain.ofBuiltin builtin).schema site)
    | .intrinsic intrinsic => c.intrinsic intrinsic type
    | .declared id decl => c.declared models types id decl ctx site

def typesWithin (c : Converter) (models : ModelStep) : Nat → TypeStep
  | 0 => fun _ _ _ => throw .endless
  | fuel + 1 => c.typeStep models (c.typesWithin models fuel)

/-- Types down to the next models. A chain of references that ends before a model passes no
declaration twice. -/
def typesBy (c : Converter) (models : ModelStep) : TypeStep :=
  c.typesWithin models (c.graph.types.size + 2)

/-- A property with its name, `none` if its type has no form on the wire. -/
def propertyBy (c : Converter) (types : TypeStep) (property : EffectiveProperty) (v : Visibility) :
    ConvertM (Option NamedSchema) := do
  let decl := property.decl
  match ← types decl.type { visibility := v, collection := decl.collectionFormat }
      [decl.constraints] with
  | none => return none
  | some schema => return some {
      name := property.name
      schema := { schema with
        readOnly := schema.readOnly || property.readOnly
        default := schema.default.or decl.default }
      required := property.required
      description := decl.description
      secret := c.graph.isSecret decl.type decl.constraints
      clientFlatten := decl.clientFlatten }

/-- A model's properties that come from below `host`; all of its own if `host` is no ancestor. -/
def chainBelow (chain : List TypeId) (host id : TypeId) : List TypeId :=
  match chain.dropWhile (· ≠ host) with
  | _ :: below => below
  | [] => [id]

def variant (c : Converter) (types : TypeStep) (nested : VariantStep) (host : TypeId)
    (property value : String) (v : Visibility) (id : TypeId) (model : ModelType)
    (visited : List TypeId) : ConvertM (Variant × List TypeId) := do
  let chain ← ConvertM.ofResolve (c.graph.ancestry id)
  let payload := c.graph.collect (chainBelow chain host id) (c.graph.discriminatorNames chain) v
  let props ← ConvertM.keep (fun p => c.propertyBy types p v)
    (payload.filter (·.name ≠ property))
  let format := ObjectFormat.ofLayers [model.constraints]
  match model.discriminator.filter (· ≠ property) with
  | none => return ({ property, value, format, props }, visited)
  | some inner =>
    let (variants, visited) ← nested id inner v visited
    let props := markDiscriminator inner variants props
    return ({ property, value, format, props, variants }, visited)

/-- Takes in a derived model. One that was looked at before, a template and one that is not pinned
to a value give no variant. -/
def addVariant (c : Converter) (types : TypeStep) (nested : VariantStep) (host : TypeId)
    (property : String) (v : Visibility) (state : List Variant × List TypeId) (name : String) :
    ConvertM (List Variant × List TypeId) := do
  let (id, model) ← ConvertM.ofResolve (c.graph.modelNamed name)
  if state.2.contains id then return state
  else if model.template then return (state.1, id :: state.2)
  else
    match c.graph.pinnedValue? model property with
    | none => return (state.1, id :: state.2)
    | some value =>
      let (variant, visited) ←
        c.variant types nested host property value v id model (id :: state.2)
      return (state.1 ++ [variant], visited)

/-- The variants that the derived models of a host are, through at most `fuel` levels. A model is
looked at once, so it gives one variant at most. -/
def variantsWithin (c : Converter) (types : TypeStep) : Nat → VariantStep
  | 0 => fun _ _ _ _ => throw .endless
  | fuel + 1 => fun host property v visited =>
    match c.graph.model? host with
    | none => return ([], visited)
    | some model =>
      model.derived.foldlM (c.addVariant types (c.variantsWithin types fuel) host property v)
        ([], visited)

/-- What a model is under a visibility, wherever it occurs. Variants are nested no deeper than there
are models to look at. -/
def objectBy (c : Converter) (types : TypeStep) (id : TypeId) (v : Visibility) :
    ConvertM ObjectSchema :=
  match c.graph.model? id with
  | none => throw (.resolve (.notAModel (c.graph.key id)))
  | some model => do
    let payload ← ConvertM.ofResolve (c.graph.payload id v)
    let props ← ConvertM.keep (fun p => c.propertyBy types p v) payload
    let additional ← c.additional types model v
    match model.discriminator with
    | none => return { identity := model.identity, props, additional }
    | some property =>
      let (variants, _) ← c.variantsWithin types (c.graph.types.size + 2) id property v [id]
      return {
        identity := model.identity
        props := markDiscriminator property variants props
        variants, additional }

/-- The object of a model where it occurs, under its label if it is a class of the pass. -/
def body (c : Converter) (label : Option ClassRef) (id : TypeId) (site : List Constraints)
    (object : ObjectSchema) : Schema :=
  let own := ((c.graph.model? id).map (·.constraints)).toList
  .ofKind ((SchemaKind.object { object with label }).harvest (site ++ own) none)

/-- The object of a model the first time, and a reference to it every other time. At most `fuel`
models are built inside each other. -/
def modelWithin (c : Converter) : Nat → ModelStep
  | 0 => fun _ _ _ => throw .endless
  | fuel + 1 => fun id v site => do
    let (slot, count) ← ConvertM.visit id v
    if 1 < count then return .ofKind (.reference (.shared slot none))
    else
      let object ← c.objectBy (c.typesBy (c.modelWithin fuel)) id v
      let body := c.body (some (.shared slot none)) id site object
      ConvertM.store slot body
      return body

/-- The models of a pass. No model is built while it is being built, so no more of them are built
inside each other than there are declarations. -/
def models (c : Converter) : ModelStep := c.modelWithin (c.graph.types.size + 2)

/-- The schema of a type, `none` if it has no form on the wire. -/
def convert (c : Converter) : TypeStep := c.typesBy c.models

def property (c : Converter) (p : EffectiveProperty) (ctx : Context) :
    ConvertM (Option NamedSchema) := c.propertyBy c.convert p ctx.visibility

def model (c : Converter) (id : TypeId) (ctx : Context) (site : List Constraints) :
    ConvertM Schema := c.models id ctx.visibility site

end Converter
end WireSchema
