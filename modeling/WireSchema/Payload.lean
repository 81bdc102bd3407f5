import WireSchema.Graph

/-! The properties that a model has on the wire under a visibility, its inherited ones first. -/
namespace WireSchema

structure EffectiveProperty where
  name : String
  decl : Property
  /-- The model that declares the property. -/
  owner : TypeId
  required : Bool
  readOnly : Bool
  deriving Repr

namespace TypeGraph

/-- The bases of a model, nearest first, in front of which `seen` has been passed. A base that was
passed before ends the walk. -/
def bases (graph : TypeGraph) : Nat → List TypeId → TypeId → Except ResolveError (List TypeId)
  | 0, _, _ => return []
  | fuel + 1, seen, id =>
    match (graph.model? id).bind (·.base) with
    | none => return []
    | some base => do
      let (next, _) ← graph.modelNamed base
      if seen.contains next then return []
      else return next :: (← bases graph fuel (next :: seen) next)

/-- A model with its bases, the root first. No model is met twice, so there are no more of them than
declarations. -/
def ancestry (graph : TypeGraph) (id : TypeId) : Except ResolveError (List TypeId) := do
  return (id :: (← graph.bases (graph.types.size + 1) [id] id)).reverse

def discriminatorNames (graph : TypeGraph) (chain : List TypeId) : List String :=
  chain.filterMap fun id => (graph.model? id).bind (·.discriminator)

/-- Enters one declaration into a payload. It takes the place of an earlier one of its name, and
a hidden declaration takes the earlier one away. -/
def declare (discriminators : List String) (v : Visibility) (owner : TypeId)
    (properties : List EffectiveProperty) (name : String) (decl : Property) :
    List EffectiveProperty :=
  if decl.isVisible v then
    let property : EffectiveProperty := {
      name, decl, owner
      required := !decl.optional || discriminators.contains name
      readOnly := v == .read && decl.isReadOnly }
    if properties.any (·.name == name) then
      properties.map fun p => if p.name = name then property else p
    else properties ++ [property]
  else properties.filter (·.name ≠ name)

def collect (graph : TypeGraph) (chain : List TypeId) (discriminators : List String)
    (v : Visibility) : List EffectiveProperty :=
  chain.foldl (fun properties owner =>
    match graph.model? owner with
    | none => properties
    | some model =>
      model.properties.entries.foldl
        (fun properties e => declare discriminators v owner properties e.1 e.2) properties) []

/-- The properties of a model under a visibility. A property is required if it is not optional or if
some model of the hierarchy tells its derived models apart by it. -/
def payload (graph : TypeGraph) (id : TypeId) (v : Visibility) :
    Except ResolveError (List EffectiveProperty) := do
  let chain ← graph.ancestry id
  return graph.collect chain (graph.discriminatorNames chain) v

end TypeGraph
end WireSchema
