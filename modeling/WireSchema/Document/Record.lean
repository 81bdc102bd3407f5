import WireSchema.Document
import WireSchema.OrderedMap

/-! Records inside a document: which fields are there, and the ways to ask for one. A record is
written as a mapping or, where its medium allows it, as the list of its fields in order. -/
namespace WireSchema

/-- The form in which a part of a document is read. A settled part has no plain scalars left; it
arises where a reader had to look at a part before it knew what the part should be. -/
inductive Medium where
  | json
  | yaml
  | settled
  deriving DecidableEq, Repr

namespace Medium

def positional : Medium → Bool
  | .yaml => false
  | _ => true

/-- The choice that a scalar or a mapping names. Outside of YAML, a mapping with one key and an
empty value names a choice as well; in YAML a local tag on an empty scalar does. -/
def chosen? (medium : Medium) (count : Nat) : Node → Option (String ⊕ Fin count)
  | .text s => some (.inl s)
  | .plain s => some (.inl s)
  | .tagged tag content =>
    if Node.isLocalTag tag then
      match content with
      | .plain s => if Plain.isNull s then some (.inl (String.ofList (tag.toList.drop 1))) else none
      | _ => none
    else content.text?.map .inl
  | .map [(key, value)] =>
    let isUnit := match value, medium with
      | .null, .json => true
      | .null, .settled => true
      | .map [], .settled => true
      | _, _ => false
    if !isUnit then none else
    match key with
    | .text s => some (.inl s)
    | .integer n =>
      if h : n.toNat < count then if 0 ≤ n then some (.inr ⟨n.toNat, h⟩) else none else none
    | _ => none
  | _ => none

def choice? {α : Type} (medium : Medium) (choices : List (String × α)) (node : Node) :
    Option α := do
  match ← medium.chosen? choices.length node with
  | .inl name => choices.lookup name
  | .inr i => some choices[i].2

end Medium

structure Fields where
  medium : Medium
  positional : Bool
  found : List (String × Node)

namespace Fields

/-- The name that a key stands for. In a settled document a number stands for the field at that
place, and no other scalar than a text is a key. -/
def name? (medium : Medium) (names : List String) (key : Node) : Option String :=
  match medium, key with
  | .settled, .integer n => if 0 ≤ n then some (names.getD n.toNat "") else none
  | _, key => key.text?

def ofEntries? (medium : Medium) (names : List String) (entries : List (Node × Node)) :
    Option (List (String × Node)) := do
  let named ← entries.mapM fun (k, v) => (name? medium names k).map (·, v)
  let known := named.filter fun e => names.contains e.1
  if (known.map Prod.fst).Nodup then some known else none

def ofNode? (medium : Medium) (names : List String) (node : Node) : Option Fields :=
  match node.entries? with
  | some entries => (ofEntries? medium names entries).map (Fields.mk medium false)
  | none =>
    match node with
    | .list items =>
      if medium.positional && items.length ≤ names.length then
        some ⟨medium, true, names.zip items⟩
      else none
    | _ => none

/-- Splits the fields of an open record into those with a name of its own and the rest. The rest is
settled, and numbers are not names here. -/
def ofOpenNode? (medium : Medium) (names : List String) (node : Node) :
    Option (Fields × List (String × Node)) := do
  let entries ← node.entries?
  let named ← entries.mapM fun (k, v) => (name? medium [] k).map (·, v)
  let known := named.filter fun e => names.contains e.1
  let rest ← (named.filter fun e => !names.contains e.1).mapM fun (k, v) => v.settle.map (k, ·)
  if (known.map Prod.fst).Nodup then some (⟨medium, false, known⟩, rest) else none

def required? {α : Type} (fields : Fields) (name : String) (read : Node → Option α) : Option α :=
  (fields.found.lookup name).bind read

/-- A field that may be left out or null. In a record written as a list it has its place. -/
def optional? {α : Type} (fields : Fields) (name : String) (read : Node → Option α) :
    Option (Option α) :=
  match fields.found.lookup name with
  | some node => node.optional? read
  | none => if fields.positional then none else some none

def default? {α : Type} (fields : Fields) (name : String) (value : α) (read : Node → Option α) :
    Option α :=
  match fields.found.lookup name with
  | some node => read node
  | none => some value

end Fields

/-- A mapping from texts. Of two entries with one key the first gives the place and the last the
value. -/
def Node.mapOf? {α : Type} (read : Node → Option α) (node : Node) :
    Option (OrderedMap String α) := do
  let entries ← (← node.entries?).mapM fun (k, v) => do return (← k.text?, ← read v)
  return .ofEntries entries

end WireSchema
