import WireSchema.Graph.Operation

/-! The stages for which the schema of an operation is emitted. -/
namespace WireSchema

inductive Stage where
  | read
  | create
  | update
  deriving DecidableEq, Repr

namespace Stage

def ofVerb : Verb → List Stage
  | .get => [read]
  | .head => [read]
  | .delete => [create]
  | .post => [create]
  | .put => [create, update]
  | .patch => [update]
  | .options => []

def visibility : Stage → Visibility
  | read => .read
  | create => .create
  | update => .update

def name : Stage → String
  | read => "read"
  | create => "create"
  | update => "update"

def all : List Stage := [read, create, update]

end Stage
end WireSchema
