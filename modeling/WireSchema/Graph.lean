import WireSchema.Error
import WireSchema.Graph.Operation

/-! Type graphs and the meaning of names in them. A declaration hides a type of the same name that
is known to every graph. -/
namespace WireSchema

inductive BuiltinScalar where
  | string
  | url
  | bytes
  | boolean
  | integer
  | int8
  | int16
  | int32
  | int64
  | uint8
  | uint16
  | uint32
  | uint64
  | safeint
  | numeric
  | float
  | float32
  | float64
  | decimal
  | decimal128
  | plainDate
  | plainTime
  | utcDateTime
  | offsetDateTime
  | duration
  | uuid
  | armResourceIdentifier
  | azureLocation
  deriving DecidableEq, Repr

namespace BuiltinScalar

def named : List (String × BuiltinScalar) := [
  ("string", string), ("url", url), ("bytes", bytes), ("boolean", boolean), ("integer", integer),
  ("int8", int8), ("int16", int16), ("int32", int32), ("int64", int64), ("uint8", uint8),
  ("uint16", uint16), ("uint32", uint32), ("uint64", uint64), ("safeint", safeint),
  ("numeric", numeric), ("float", float), ("float32", float32), ("float64", float64),
  ("decimal", decimal), ("decimal128", decimal128), ("plainDate", plainDate),
  ("plainTime", plainTime), ("utcDateTime", utcDateTime), ("offsetDateTime", offsetDateTime),
  ("duration", duration), ("uuid", uuid), ("armResourceIdentifier", armResourceIdentifier),
  ("azureLocation", azureLocation)]

def ofName? (name : String) : Option BuiltinScalar := named.lookup name

end BuiltinScalar

inductive Intrinsic where
  | null
  | never
  | void
  | unknown
  deriving DecidableEq, Repr

namespace Intrinsic

def named : List (String × Intrinsic) :=
  [("null", null), ("never", never), ("void", void), ("unknown", unknown)]

def ofName? (name : String) : Option Intrinsic := named.lookup name

end Intrinsic

/-- A declaration's place among the declarations of its graph. -/
structure TypeId where
  index : Nat
  deriving DecidableEq, Repr

structure TypeGraph where
  version : String
  service : Service := {}
  types : OrderedMap String Declaration := .empty
  operations : List Operation := []

/-- What a type reference leads to. -/
inductive Resolved where
  | declared (id : TypeId) (decl : Declaration)
  | builtin (scalar : BuiltinScalar)
  | intrinsic (type : Intrinsic)
  | literal (value : Json)

namespace TypeGraph

def find? (graph : TypeGraph) (name : String) : Option (TypeId × Declaration) := do
  let i ← graph.types.index? name
  let entry ← graph.types.entryAt? i
  return (⟨i⟩, entry.2)

/-- Declarations come before builtin scalars, and these before intrinsics. -/
def resolveName (graph : TypeGraph) (name : String) : Except ResolveError Resolved :=
  match graph.find? name, BuiltinScalar.ofName? name, Intrinsic.ofName? name with
  | some (id, decl), _, _ => .ok (.declared id decl)
  | none, some scalar, _ => .ok (.builtin scalar)
  | none, none, some type => .ok (.intrinsic type)
  | none, none, none => .error (.unknownType name)

def resolve (graph : TypeGraph) : TypeRef → Except ResolveError Resolved
  | .named name => graph.resolveName name
  | .literal value => .ok (.literal value)

def declaration? (graph : TypeGraph) (id : TypeId) : Option Declaration :=
  (graph.types.entryAt? id.index).map Prod.snd

def key (graph : TypeGraph) (id : TypeId) : String :=
  ((graph.types.entryAt? id.index).map Prod.fst).getD ""

def model? (graph : TypeGraph) (id : TypeId) : Option ModelType :=
  match graph.declaration? id with
  | some (.model model) => some model
  | _ => none

def modelNamed (graph : TypeGraph) (name : String) : Except ResolveError (TypeId × ModelType) := do
  match ← graph.resolveName name with
  | .declared id (.model model) => return (id, model)
  | _ => throw (.notAModel name)

/-- The model's own name, or its key if it has none. -/
def modelName (graph : TypeGraph) (id : TypeId) : String :=
  match graph.model? id with
  | some model => if model.name.isEmpty then graph.key id else model.name
  | none => graph.key id

end TypeGraph
end WireSchema
