import WireSchema.Error
import WireSchema.Naming
import WireSchema.Schema

/-! The classes of one pass. A class is a model under a visibility; it is counted how often the pass
meets it, and a class that was met at least twice gets a name when the pass ends. -/
namespace WireSchema

structure ClassRecord where
  type : TypeId
  visibility : Visibility
  count : Nat := 0
  name : Option String := none
  body : Option Schema := none

def ClassRecord.isFor (r : ClassRecord) (type : TypeId) (v : Visibility) : Bool :=
  r.type = type && r.visibility = v

def ClassRecord.isShared (r : ClassRecord) : Bool := 2 ≤ r.count

/-- The classes of a pass, in the order in which they were met first. A class's slot is its
place. -/
structure ClassTable where
  records : List ClassRecord := []

namespace ClassTable

def slotOf (t : ClassTable) (type : TypeId) (v : Visibility) : Slot × ClassTable :=
  match t.records.findIdx? (·.isFor type v) with
  | some slot => (slot, t)
  | none => (t.records.length, ⟨t.records ++ [{ type, visibility := v }]⟩)

def record? (t : ClassTable) (slot : Slot) : Option ClassRecord := t.records[slot]?

def update (t : ClassTable) (slot : Slot) (f : ClassRecord → ClassRecord) : ClassTable :=
  ⟨t.records.modify slot f⟩

def count (t : ClassTable) (slot : Slot) : Nat := ((t.record? slot).map (·.count)).getD 0

def visit (t : ClassTable) (slot : Slot) : ClassTable :=
  t.update slot fun r => { r with count := r.count + 1 }

/-- Enters an occurrence of a model under a visibility, whose slot is returned. -/
def enter (t : ClassTable) (type : TypeId) (v : Visibility) : Slot × ClassTable :=
  let (slot, t) := t.slotOf type v
  (slot, t.visit slot)

def store (t : ClassTable) (slot : Slot) (body : Schema) : ClassTable :=
  t.update slot fun r => { r with body := some body }

def size (t : ClassTable) : Nat := t.records.length

/-- Whether a model is shared under more than one visibility. -/
def isAmbiguous (t : ClassTable) (type : TypeId) : Bool :=
  1 < (t.records.filter fun r => r.isShared && r.type = type).length

/-- The name that a shared class asks for: its model's, with its visibility if that is needed to
tell it apart, and with the stage unless it is for reading. -/
def wantedName (t : ClassTable) (graph : TypeGraph) (stage : Stage) (r : ClassRecord) : String :=
  Naming.definitionBase graph r.type ++
    (if t.isAmbiguous r.type && r.visibility ≠ stage.visibility then "_" ++ r.visibility.name
      else "") ++
    (if r.visibility ≠ .read && stage ≠ .read then "_" ++ stage.name else "")

/-- Names the shared classes among some records, apart from the names used before. -/
def nameRecords (wanted : ClassRecord → String) : List String → List ClassRecord → List ClassRecord
  | _, [] => []
  | used, r :: rest =>
    if r.isShared then
      let (name, used) := Naming.unique (wanted r) used
      { r with name := some name } :: nameRecords wanted used rest
    else { r with name := none } :: nameRecords wanted used rest

/-- Names the shared classes in the order of their slots. -/
def finalize (t : ClassTable) (graph : TypeGraph) (stage : Stage) : ClassTable :=
  ⟨nameRecords (t.wantedName graph stage) [] t.records⟩

def nameOf (t : ClassTable) (slot : Slot) : Option String := (t.record? slot).bind (·.name)

end ClassTable

/-- The reference with the name of its slot; external ones keep theirs. -/
def ClassRef.resolve (names : Slot → Option String) : ClassRef → ClassRef
  | .shared slot _ => .shared slot (names slot)
  | .external name => .external name

mutual

def SchemaKind.resolve (names : Slot → Option String) : SchemaKind → SchemaKind
  | .object o => .object (o.resolve names)
  | .array format item => .array format (resolveOption names item)
  | .reference target => .reference (target.resolve names)
  | .string type format values => .string type format values
  | .integer type format values => .integer type format values
  | .float type format => .float type format
  | .boolean => .boolean

def ObjectSchema.resolve (names : Slot → Option String) : ObjectSchema → ObjectSchema
  | ⟨identity, format, props, variants, additional, label⟩ =>
    ⟨identity, format, resolveProps names props, resolveVariants names variants,
      resolveAdditional names additional, label.map (ClassRef.resolve names)⟩

def Schema.resolve (names : Slot → Option String) : Schema → Schema
  | ⟨kind, readOnly, nullable, isConst, default⟩ =>
    ⟨kind.resolve names, readOnly, nullable, isConst, default⟩

def NamedSchema.resolve (names : Slot → Option String) : NamedSchema → NamedSchema
  | ⟨name, schema, required, description, secret, skipUrlEncoding, clientFlatten⟩ =>
    ⟨name, schema.resolve names, required, description, secret, skipUrlEncoding, clientFlatten⟩

def Variant.resolve (names : Slot → Option String) : Variant → Variant
  | ⟨property, value, format, props, variants⟩ =>
    ⟨property, value, format, resolveProps names props, resolveVariants names variants⟩

def resolveOption (names : Slot → Option String) : Option Schema → Option Schema
  | none => none
  | some schema => some (schema.resolve names)

def resolveAdditional (names : Slot → Option String) : Option Additional → Option Additional
  | none => none
  | some .anything => some .anything
  | some (.items item) => some (.items (resolveOption names item))

def resolveProps (names : Slot → Option String) : List NamedSchema → List NamedSchema
  | [] => []
  | prop :: rest => prop.resolve names :: resolveProps names rest

def resolveVariants (names : Slot → Option String) : List Variant → List Variant
  | [] => []
  | variant :: rest => variant.resolve names :: resolveVariants names rest

end

namespace ClassTable

def definition? (t : ClassTable) (r : ClassRecord) : Option (String × Schema) :=
  match r.name, r.body with
  | some name, some body => some (name, body.resolve t.nameOf)
  | _, _ => none

/-- The bodies of the named classes under their names, in the order of their slots. -/
def definitions (t : ClassTable) : OrderedMap String Schema :=
  .ofEntries (t.records.filterMap t.definition?)

end ClassTable
end WireSchema
