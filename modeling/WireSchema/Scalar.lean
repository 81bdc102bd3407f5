import WireSchema.Graph
import WireSchema.Harvest

/-! Scalars traced back to the builtin scalar that they derive from, and their wire kinds. -/
namespace WireSchema

/-- A builtin scalar, and the constraints of the declared scalars on the way to it, the most derived
first. -/
structure ScalarChain where
  builtin : BuiltinScalar
  layers : List Constraints := []
  deriving Repr

namespace ScalarChain

def ofBuiltin (builtin : BuiltinScalar) : ScalarChain := { builtin }

/-- A scalar without base stands for the builtin scalar of its name, else for a text. -/
def root (graph : TypeGraph) (id : TypeId) (decl : ScalarType) : BuiltinScalar :=
  let name := if decl.name.isEmpty then graph.key id else decl.name
  (BuiltinScalar.ofName? name).getD .string

def follow (graph : TypeGraph) : Nat → List TypeId → TypeId → Except ResolveError ScalarChain
  | 0, _, id => throw (.unknownType (graph.key id))
  | fuel + 1, seen, id =>
    match graph.declaration? id with
    | some (.scalar decl) =>
      if seen.contains id then throw (.unknownType (graph.key id)) else
      match decl.base with
      | none => return ⟨root graph id decl, [decl.constraints]⟩
      | some base => do
        match ← graph.resolveName base with
        | .builtin builtin => return ⟨builtin, [decl.constraints]⟩
        | .declared next (.scalar _) =>
          let chain ← follow graph fuel (id :: seen) next
          return { chain with layers := decl.constraints :: chain.layers }
        | _ => throw (.unknownType base)
    | _ => throw (.unknownType (graph.key id))

/-- The chain of a declared scalar. It meets no scalar twice, so it is no longer than the list of
declarations. -/
def ofDeclared (graph : TypeGraph) (id : TypeId) : Except ResolveError ScalarChain :=
  follow graph (graph.types.size + 1) [] id

def isSecret (chain : ScalarChain) (site : List Constraints) : Bool :=
  (site ++ chain.layers).any (·.secret)

/-- The kind without regard to encodings and formats. -/
def naturalKind : BuiltinScalar → SchemaKind
  | .string | .url => .ofStringType .string
  | .bytes => .ofStringType .byte
  | .uuid => .ofStringType .uuid
  | .plainDate => .ofStringType .date
  | .plainTime => .ofStringType .time
  | .utcDateTime | .offsetDateTime => .ofStringType .dateTime
  | .duration => .ofStringType .duration
  | .armResourceIdentifier => .ofStringType .resourceId
  | .azureLocation => .ofStringType .resourceLocation
  | .boolean => .boolean
  | .integer => .ofIntegerType .integer
  | .int8 | .int16 | .int32 | .uint8 | .uint16 => .ofIntegerType .integer32
  | .int64 | .uint32 | .uint64 | .safeint => .ofIntegerType .integer64
  | .numeric | .float | .decimal | .decimal128 => .ofFloatType .float
  | .float32 => .ofFloatType .float32
  | .float64 => .ofFloatType .float64

def isTemporal : BuiltinScalar → Bool
  | .plainDate | .plainTime | .utcDateTime | .offsetDateTime | .duration => true
  | _ => false

def encodedKind? (builtin : BuiltinScalar) (encoding : String) : Option SchemaKind :=
  if isTemporal builtin then
    match encoding with
    | "rfc7231" => some (.ofStringType .string)
    | "unixTimestamp" => some (.ofIntegerType .integer64)
    | "seconds" => some (.ofFloatType .float)
    | _ => none
  else none

def formatType? : String → Option StringType
  | "uuid" => some .uuid
  | "password" => some .password
  | "arm-id" | "resource-id" => some .resourceId
  | "date" => some .date
  | "date-time" => some .dateTime
  | "duration" => some .duration
  | "byte" => some .byte
  | "time" => some .time
  | _ => none

/-- The wire kind of a scalar that is used under the constraints of `site`. The first encoding
counts, and for a plain text the first format. -/
def kind (chain : ScalarChain) (site : List Constraints) : SchemaKind :=
  let layers := site ++ chain.layers
  let encoded := (layers.findSome? (·.encode)).bind (encodedKind? chain.builtin)
  match encoded.getD (naturalKind chain.builtin) with
  | .string .string format values =>
    let type := ((layers.findSome? (·.format)).bind formatType?).getD .string
    .string type format values
  | kind => kind

end ScalarChain
end WireSchema
