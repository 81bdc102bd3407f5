import WireSchema.Convert

/-! The places of a tree that have to do with classes: objects under a label and references. -/
namespace WireSchema

inductive Mention where
  | inline (label : ClassRef) (object : ObjectSchema)
  | reference (target : ClassRef)

namespace Mention

def target : Mention → ClassRef
  | inline label _ => label
  | reference target => target

def isInline : Mention → Bool
  | inline .. => true
  | reference _ => false

def isAt (slot : Slot) (m : Mention) : Bool :=
  match m.target with
  | .shared s _ => s = slot
  | .external _ => false

def isInlineAt (slot : Slot) (m : Mention) : Bool := m.isInline && m.isAt slot

def isReferenceAt (slot : Slot) (m : Mention) : Bool := !m.isInline && m.isAt slot

variable {slot s : Slot} {name : Option String} {o : ObjectSchema}

@[simp] theorem isAt_inline : (inline (.shared s name) o).isAt slot = decide (s = slot) := rfl

@[simp] theorem isAt_reference : (reference (.shared s name)).isAt slot = decide (s = slot) := rfl

@[simp] theorem isInlineAt_inline :
    (inline (.shared s name) o).isInlineAt slot = decide (s = slot) := by
  simp [isInlineAt, isInline]

@[simp] theorem isInlineAt_reference {target : ClassRef} :
    (reference target).isInlineAt slot = false := rfl

theorem countP_isAt (ms : List Mention) (slot : Slot) :
    ms.countP (·.isAt slot) = ms.countP (·.isInlineAt slot) + ms.countP (·.isReferenceAt slot) := by
  induction ms with
  | nil => rfl
  | cons m rest ih =>
    simp only [List.countP_cons, ih, isInlineAt, isReferenceAt]
    cases m.isInline <;> simp <;> omega

end Mention

mutual

/-- The mentions in a tree, in the order in which it is built. -/
def SchemaKind.mentions : SchemaKind → List Mention
  | .object o => (o.label.map (Mention.inline · o)).toList ++ o.mentions
  | .array _ item => itemMentions item
  | .reference target => [.reference target]
  | .string .. => []
  | .integer .. => []
  | .float .. => []
  | .boolean => []

def ObjectSchema.mentions : ObjectSchema → List Mention
  | ⟨_, _, props, variants, additional, _⟩ =>
    propMentions props ++ additionalMentions additional ++ variantMentions variants

def Schema.mentions : Schema → List Mention
  | ⟨kind, _, _, _, _⟩ => kind.mentions

def NamedSchema.mentions : NamedSchema → List Mention
  | ⟨_, schema, _, _, _, _, _⟩ => schema.mentions

def Variant.mentions : Variant → List Mention
  | ⟨_, _, _, props, variants⟩ => propMentions props ++ variantMentions variants

def itemMentions : Option Schema → List Mention
  | none => []
  | some schema => schema.mentions

def additionalMentions : Option Additional → List Mention
  | none => []
  | some .anything => []
  | some (.items item) => itemMentions item

def propMentions : List NamedSchema → List Mention
  | [] => []
  | prop :: rest => prop.mentions ++ propMentions rest

def variantMentions : List Variant → List Mention
  | [] => []
  | variant :: rest => variant.mentions ++ variantMentions rest

end

@[simp] theorem mentions_ofKind (kind : SchemaKind) :
    (Schema.ofKind kind).mentions = kind.mentions := rfl

theorem Schema.mentions_eq (s : Schema) : s.mentions = s.kind.mentions := by
  cases s; rfl

theorem NamedSchema.mentions_eq (s : NamedSchema) : s.mentions = s.schema.mentions := by
  cases s; rfl

theorem propMentions_eq (props : List NamedSchema) :
    propMentions props = props.flatMap NamedSchema.mentions := by
  induction props with
  | nil => rfl
  | cons prop rest ih => simp [propMentions, ih]

theorem variantMentions_eq (variants : List Variant) :
    variantMentions variants = variants.flatMap Variant.mentions := by
  induction variants with
  | nil => rfl
  | cons variant rest ih => simp [variantMentions, ih]

namespace SchemaKind

inductive Scalar : SchemaKind → Prop
  | string (type format values) : Scalar (.string type format values)
  | integer (type format values) : Scalar (.integer type format values)
  | float (type format) : Scalar (.float type format)
  | boolean : Scalar .boolean

inductive Flat : SchemaKind → Prop
  | scalar {kind : SchemaKind} : kind.Scalar → kind.Flat
  | anything : Flat (.object { additional := some .anything })

theorem Flat.mentions {kind : SchemaKind} (flat : kind.Flat) : kind.mentions = [] := by
  cases flat with
  | scalar scalar => cases scalar <;> rfl
  | anything => rfl

theorem Scalar.harvest {kind : SchemaKind} (scalar : kind.Scalar) (layers : List Constraints)
    (collection : Option CollectionFormat) : (kind.harvest layers collection).Scalar := by
  cases scalar <;> constructor

/-- Only texts and integers can be limited to listed values, and they stay what they are. -/
theorem Scalar.of_withValues? {kind limited : SchemaKind} {values : List Json}
    (h : kind.withValues? values = some limited) : limited.Scalar := by
  cases kind <;> simp only [withValues?, Option.some.injEq, reduceCtorEq] at h <;>
    (subst h; constructor)

theorem mentions_harvest_object (o : ObjectSchema) (layers : List Constraints)
    (collection : Option CollectionFormat) (unlabelled : o.label = none) :
    ((object o).harvest layers collection).mentions = o.mentions := by
  cases o
  cases unlabelled
  rfl

/-- Values are listed in texts and integers only, and these hold no classes. -/
theorem mentions_withValues (kind : SchemaKind) (values : List Json) :
    ((kind.withValues? values).getD kind).mentions = kind.mentions := by
  cases kind <;> rfl

end SchemaKind

/-- What is done to a property by which variants are told apart does not touch its mentions. -/
theorem NamedSchema.mentions_tellingApart (p : NamedSchema) (variants : List Variant) :
    (p.tellingApart variants).mentions = p.mentions := by
  simp only [NamedSchema.mentions_eq, Schema.mentions_eq, NamedSchema.tellingApart]
  split
  · rfl
  · exact SchemaKind.mentions_withValues _ _

theorem propMentions_markDiscriminator (property : String) (variants : List Variant)
    (props : List NamedSchema) :
    propMentions (markDiscriminator property variants props) = propMentions props := by
  induction props with
  | nil =>
    simp only [markDiscriminator, propMentions, NamedSchema.mentions_tellingApart]
    rfl
  | cons p rest ih =>
    simp only [markDiscriminator]
    split <;> simp [propMentions, NamedSchema.mentions_tellingApart, ih]

end WireSchema
