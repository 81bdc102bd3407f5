import WireSchema.OperationSchema.Encode
import WireSchema.Proofs.Mention

/-! What has a JSON form: everything in which all references have names. -/
namespace WireSchema

/-- Whether a mention can be written. An object can be written without its label. -/
def Mention.hasName : Mention → Bool
  | .inline .. => true
  | .reference target => target.name?.isSome

/-- Only references need a name. -/
theorem Mention.hasName_iff {m : Mention} {slot : Slot} {name : Option String}
    (target : m.target = .shared slot name) :
    m.hasName ↔ (m.isInline = false → name.isSome) := by
  cases m with
  | inline label o => simp [hasName, isInline]
  | reference t =>
    obtain rfl : t = .shared slot name := target
    simp [hasName, isInline, ClassRef.name?]

/-- A part whose failure does not depend on what came before it. -/
theorem isSome_bind {α β : Type} {x : Option α} {f : α → Option β} {b : Bool}
    (rest : ∀ a, (f a).isSome = b) : (x >>= f).isSome = (x.isSome && b) := by
  cases x with
  | none => rfl
  | some a => exact rest a

theorem isSome_part {α β : Type} {x : Option α} {f : α → β} :
    (x >>= fun a => pure (f a)).isSome = x.isSome := by
  cases x <;> rfl

mutual

theorem SchemaKind.isSome_fields? : ∀ kind : SchemaKind,
    kind.fields?.isSome = kind.mentions.all (·.hasName)
  | .object o => by
    rw [SchemaKind.fields?, isSome_part, o.isSome_fields?, SchemaKind.mentions, List.all_append]
    cases o.label <;> rfl
  | .array _ item => by
    rw [SchemaKind.fields?, isSome_part, isSome_itemField? "item" item, SchemaKind.mentions]
  | .reference target => by
    simp only [SchemaKind.fields?, SchemaKind.mentions, List.all_cons, List.all_nil,
      Mention.hasName, Bool.and_true]
    cases target.name? <;> rfl
  | .string .. => rfl
  | .integer .. => rfl
  | .float .. => rfl
  | .boolean => rfl

theorem ObjectSchema.isSome_fields? : ∀ o : ObjectSchema,
    o.fields?.isSome = o.mentions.all (·.hasName)
  | ⟨_, _, props, variants, additional, _⟩ => by
    rw [ObjectSchema.fields?, ObjectSchema.mentions, List.all_append, List.all_append,
      isSome_bind fun _ => isSome_bind fun _ => isSome_part, isSome_propsJson? props,
      isSome_variantsJson? variants, isSome_additionalField? additional]
    rw [Bool.and_assoc, Bool.and_comm (List.all (additionalMentions _) _)]

theorem Schema.isSome_fields? : ∀ s : Schema, s.fields?.isSome = s.mentions.all (·.hasName)
  | ⟨kind, _, _, _, _⟩ => by rw [Schema.fields?, isSome_part, kind.isSome_fields?, Schema.mentions]

theorem NamedSchema.isSome_fields? : ∀ s : NamedSchema,
    s.fields?.isSome = s.mentions.all (·.hasName)
  | ⟨_, schema, _, _, _, _, _⟩ => by
    rw [NamedSchema.fields?, isSome_part, schema.isSome_fields?, NamedSchema.mentions]

theorem Variant.isSome_fields? : ∀ variant : Variant,
    variant.fields?.isSome = variant.mentions.all (·.hasName)
  | ⟨_, _, _, props, variants⟩ => by
    rw [Variant.fields?, Variant.mentions, List.all_append, isSome_bind fun _ => isSome_part,
      isSome_propsJson? props, isSome_variantsJson? variants]

theorem isSome_itemField? (key : String) : ∀ item : Option Schema,
    (optionalSchemaField? key item).isSome = (itemMentions item).all (·.hasName)
  | none => rfl
  | some schema => by
    rw [optionalSchemaField?, isSome_part, schema.isSome_fields?, itemMentions]

theorem isSome_additionalField? : ∀ additional : Option Additional,
    (additionalField? additional).isSome = (additionalMentions additional).all (·.hasName)
  | none => rfl
  | some .anything => rfl
  | some (.items item) => by
    rw [additionalField?, isSome_part, Additional.fields?, isSome_itemField? "item" item,
      additionalMentions]

theorem isSome_propsJson? : ∀ props : List NamedSchema,
    (propsJson? props).isSome = (propMentions props).all (·.hasName)
  | [] => rfl
  | prop :: rest => by
    rw [propsJson?, propMentions, List.all_append, isSome_bind fun _ => isSome_part,
      prop.isSome_fields?, isSome_propsJson? rest]

theorem isSome_variantsJson? : ∀ variants : List Variant,
    (variantsJson? variants).isSome = (variantMentions variants).all (·.hasName)
  | [] => rfl
  | variant :: rest => by
    rw [variantsJson?, variantMentions, List.all_append, isSome_bind fun _ => isSome_part,
      variant.isSome_fields?, isSome_variantsJson? rest]

end

def Arguments.mentions (a : Arguments) : List Mention :=
  propMentions a.params ++ propMentions a.consts

def Headers.mentions (h : Headers) : List Mention := h.args.mentions

def Request.mentions (r : Request) : List Mention :=
  r.path.toList.flatMap Arguments.mentions ++ r.query.toList.flatMap Arguments.mentions ++
    r.header.toList.flatMap Headers.mentions ++ r.body.toList.flatMap NamedSchema.mentions

def ResponseBody.mentions (b : ResponseBody) : List Mention := b.schema.mentions

def Response.mentions (r : Response) : List Mention := r.body.toList.flatMap ResponseBody.mentions

def definitionMentions (definitions : OrderedMap String Schema) : List Mention :=
  definitions.entries.flatMap fun entry => entry.2.mentions

def OperationSchema.mentions (o : OperationSchema) : List Mention :=
  o.request.mentions ++ o.responses.flatMap Response.mentions ++
    (definitionMentions o.definitions.request ++ definitionMentions o.definitions.responses)

theorem isSome_mapM_iff {α β : Type} {f : α → Option β} {items : List α} :
    (items.mapM f).isSome ↔ ∀ a ∈ items, (f a).isSome := by
  induction items with
  | nil => simp
  | cons a rest ih =>
    rw [List.mapM_cons, isSome_bind fun _ => isSome_part, Bool.and_eq_true, ih,
      List.forall_mem_cons]

theorem isSome_mapM {α β : Type} {f : α → Option β} {mentions : α → List Mention}
    (each : ∀ a, (f a).isSome = (mentions a).all (·.hasName)) (items : List α) :
    (items.mapM f).isSome = (items.flatMap mentions).all (·.hasName) := by
  rw [Bool.eq_iff_iff, isSome_mapM_iff, List.all_flatMap, List.all_eq_true]
  simp only [each]

theorem isSome_partField? {α : Type} {key : String} {encode : α → Option Json}
    {mentions : α → List Mention}
    (each : ∀ a, (encode a).isSome = (mentions a).all (·.hasName)) (part : Option α) :
    (partField? key part encode).isSome = (part.toList.flatMap mentions).all (·.hasName) := by
  cases part with
  | none => rfl
  | some a => rw [partField?, isSome_part, each, Option.toList_some, List.flatMap_singleton]

theorem Schema.isSome_json? (s : Schema) : s.json?.isSome = s.mentions.all (·.hasName) := by
  rw [Schema.json?, Option.isSome_map, s.isSome_fields?]

theorem NamedSchema.isSome_json? (s : NamedSchema) :
    s.json?.isSome = s.mentions.all (·.hasName) := by
  rw [NamedSchema.json?, Option.isSome_map, s.isSome_fields?]

theorem Arguments.isSome_fields? (a : Arguments) :
    a.fields?.isSome = a.mentions.all (·.hasName) := by
  rw [Arguments.fields?, isSome_bind fun _ => isSome_part, isSome_mapM NamedSchema.isSome_json?,
    isSome_mapM NamedSchema.isSome_json?, Arguments.mentions, List.all_append, propMentions_eq,
    propMentions_eq]

theorem Request.isSome_json? (r : Request) : r.json?.isSome = r.mentions.all (·.hasName) := by
  have args (a : Arguments) :
      (a.fields?.map Json.object).isSome = a.mentions.all (·.hasName) := by
    rw [Option.isSome_map, a.isSome_fields?]
  have headers (h : Headers) :
      (h.fields?.map Json.object).isSome = h.mentions.all (·.hasName) := by
    rw [Option.isSome_map, Headers.fields?, isSome_part, h.args.isSome_fields?, Headers.mentions]
  have body (s : NamedSchema) :
      (do return payloadJson [("schema", ← s.json?)] : Option Json).isSome =
        s.mentions.all (·.hasName) := by
    rw [isSome_part, s.isSome_json?]
  rw [Request.json?, isSome_bind fun _ => isSome_bind fun _ => isSome_bind fun _ => isSome_part,
    isSome_partField? args, isSome_partField? args, isSome_partField? headers,
    isSome_partField? body, Request.mentions]
  simp only [List.all_append, Bool.and_assoc]

theorem Response.isSome_json? (r : Response) : r.json?.isSome = r.mentions.all (·.hasName) := by
  have body (b : ResponseBody) : b.json?.isSome = b.mentions.all (·.hasName) := by
    rw [ResponseBody.json?, isSome_part, b.schema.isSome_json?, ResponseBody.mentions]
  rw [Response.json?, isSome_part, isSome_partField? body, Response.mentions]

theorem isSome_definitionsField? (key : String) (definitions : OrderedMap String Schema) :
    (definitionsField? key definitions).isSome =
      (definitionMentions definitions).all (·.hasName) := by
  have entry (e : String × Schema) :
      (do return (e.1, ← e.2.json?) : Option (String × Json)).isSome =
        e.2.mentions.all (·.hasName) := by
    rw [isSome_part, e.2.isSome_json?]
  rw [definitionsField?, isSome_part, isSome_mapM entry, definitionMentions]

/-- An operation has a JSON form exactly if all its references have names. -/
theorem OperationSchema.isSome_json? (o : OperationSchema) :
    o.json?.isSome = o.mentions.all (·.hasName) := by
  have definitions (d : Definitions) : d.fields?.isSome =
      (definitionMentions d.request ++ definitionMentions d.responses).all (·.hasName) := by
    rw [Definitions.fields?, isSome_bind fun _ => isSome_part, isSome_definitionsField?,
      isSome_definitionsField?, List.all_append]
  rw [OperationSchema.json?, isSome_bind fun _ => isSome_bind fun _ => isSome_part,
    o.request.isSome_json?, isSome_mapM Response.isSome_json?, definitions]
  simp only [OperationSchema.mentions, List.all_append, Bool.and_assoc]

end WireSchema
