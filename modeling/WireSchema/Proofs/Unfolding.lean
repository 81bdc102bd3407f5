import WireSchema.Proofs.Mention

/-! Trees seen without classes: references replaced by what is defined for them, and the whole cut
where models are nested too deep. -/
namespace WireSchema

mutual

/-- Rewrites a tree from its top down. `object` says what becomes of an object, `none` if only what
it holds is rewritten. -/
def SchemaKind.rewrite (object : ObjectSchema → Option SchemaKind)
    (reference : ClassRef → SchemaKind) : SchemaKind → SchemaKind
  | .object o => (object o).getD (.object (o.rewrite object reference))
  | .array format item => .array format (rewriteItem object reference item)
  | .reference target => reference target
  | .string type format values => .string type format values
  | .integer type format values => .integer type format values
  | .float type format => .float type format
  | .boolean => .boolean

def ObjectSchema.rewrite (object : ObjectSchema → Option SchemaKind)
    (reference : ClassRef → SchemaKind) : ObjectSchema → ObjectSchema
  | ⟨identity, format, props, variants, additional, label⟩ =>
    ⟨identity, format, rewriteProps object reference props,
      rewriteVariants object reference variants, rewriteAdditional object reference additional,
      label⟩

def Schema.rewrite (object : ObjectSchema → Option SchemaKind)
    (reference : ClassRef → SchemaKind) : Schema → Schema
  | ⟨kind, readOnly, nullable, isConst, default⟩ =>
    ⟨kind.rewrite object reference, readOnly, nullable, isConst, default⟩

def NamedSchema.rewrite (object : ObjectSchema → Option SchemaKind)
    (reference : ClassRef → SchemaKind) : NamedSchema → NamedSchema
  | ⟨name, schema, required, description, secret, skipUrlEncoding, clientFlatten⟩ =>
    ⟨name, schema.rewrite object reference, required, description, secret, skipUrlEncoding,
      clientFlatten⟩

def Variant.rewrite (object : ObjectSchema → Option SchemaKind)
    (reference : ClassRef → SchemaKind) : Variant → Variant
  | ⟨property, value, format, props, variants⟩ =>
    ⟨property, value, format, rewriteProps object reference props,
      rewriteVariants object reference variants⟩

def rewriteItem (object : ObjectSchema → Option SchemaKind)
    (reference : ClassRef → SchemaKind) : Option Schema → Option Schema
  | none => none
  | some schema => some (schema.rewrite object reference)

def rewriteAdditional (object : ObjectSchema → Option SchemaKind)
    (reference : ClassRef → SchemaKind) : Option Additional → Option Additional
  | none => none
  | some .anything => some .anything
  | some (.items item) => some (.items (rewriteItem object reference item))

def rewriteProps (object : ObjectSchema → Option SchemaKind)
    (reference : ClassRef → SchemaKind) : List NamedSchema → List NamedSchema
  | [] => []
  | prop :: rest => prop.rewrite object reference :: rewriteProps object reference rest

def rewriteVariants (object : ObjectSchema → Option SchemaKind)
    (reference : ClassRef → SchemaKind) : List Variant → List Variant
  | [] => []
  | variant :: rest => variant.rewrite object reference :: rewriteVariants object reference rest

end

namespace SchemaKind

def unfoldReference (definitions : OrderedMap String Schema) : Nat → ClassRef → SchemaKind
  | 0, target => .reference target
  | depth + 1, target =>
    match target.name?.bind definitions.get? with
    | some definition =>
      definition.kind.rewrite (fun _ => none) (unfoldReference definitions depth)
    | none => .reference target

/-- Replaces every reference by the kind that is defined under its name, at most `depth` of them
inside each other. -/
def unfold (definitions : OrderedMap String Schema) (depth : Nat) : SchemaKind → SchemaKind :=
  rewrite (fun _ => none) (unfoldReference definitions depth)

/-- What stands for a class that is too deep to be shown. -/
def cut : SchemaKind := .reference (.external "")

/-- What is seen of a labelled object: neither its label nor its bounds, and nothing of it if no
more models are to be seen. -/
def outlineObject : Nat → ObjectSchema → Option SchemaKind
  | 0, o => o.label.map fun _ => cut
  | depth + 1, o => o.label.map fun _ =>
    .object { o.rewrite (outlineObject depth) (fun _ => cut) with label := none, format := none }

/-- The tree cut where more than `depth` models are inside each other, and at references, without
the labels and bounds of the models' objects. -/
def outline (depth : Nat) : SchemaKind → SchemaKind :=
  rewrite (outlineObject depth) fun _ => cut

end SchemaKind

def Schema.mapKind (f : SchemaKind → SchemaKind) (s : Schema) : Schema :=
  { s with kind := f s.kind }

def NamedSchema.mapKind (f : SchemaKind → SchemaKind) (p : NamedSchema) : NamedSchema :=
  { p with schema := p.schema.mapKind f }

def Additional.mapKind (f : SchemaKind → SchemaKind) : Additional → Additional
  | .anything => .anything
  | .items item => .items (item.map (Schema.mapKind f))

mutual

def Variant.mapKind (f : SchemaKind → SchemaKind) : Variant → Variant
  | ⟨property, value, format, props, variants⟩ =>
    ⟨property, value, format, props.map (NamedSchema.mapKind f), mapVariants f variants⟩

def mapVariants (f : SchemaKind → SchemaKind) : List Variant → List Variant
  | [] => []
  | variant :: rest => variant.mapKind f :: mapVariants f rest

end

def ObjectSchema.mapKind (f : SchemaKind → SchemaKind) (o : ObjectSchema) : ObjectSchema :=
  { o with
    props := o.props.map (NamedSchema.mapKind f)
    variants := o.variants.map (Variant.mapKind f)
    additional := o.additional.map (Additional.mapKind f) }

section Compositions

variable (f h : SchemaKind → SchemaKind)

theorem mapVariants_eq (variants : List Variant) :
    mapVariants f variants = variants.map (Variant.mapKind f) := by
  induction variants with
  | nil => rfl
  | cons variant rest ih => simp [mapVariants, ih]

@[simp] theorem Schema.mapKind_mapKind (s : Schema) :
    (s.mapKind f).mapKind h = s.mapKind (h ∘ f) := rfl

@[simp] theorem NamedSchema.mapKind_mapKind (p : NamedSchema) :
    (p.mapKind f).mapKind h = p.mapKind (h ∘ f) := rfl

@[simp] theorem Additional.mapKind_mapKind (additional : Additional) :
    (additional.mapKind f).mapKind h = additional.mapKind (h ∘ f) := by
  cases additional <;> simp [Additional.mapKind, Function.comp_def]

mutual

@[simp] theorem Variant.mapKind_mapKind : ∀ variant : Variant,
    (variant.mapKind f).mapKind h = variant.mapKind (h ∘ f)
  | ⟨_, _, _, props, variants⟩ => by
    simp only [Variant.mapKind, mapVariants_mapVariants variants, List.map_map, Variant.mk.injEq,
      true_and, and_true]
    exact List.map_congr_left fun p _ => p.mapKind_mapKind f h

theorem mapVariants_mapVariants : ∀ variants : List Variant,
    mapVariants h (mapVariants f variants) = mapVariants (h ∘ f) variants
  | [] => rfl
  | variant :: rest => by
    simp only [mapVariants, variant.mapKind_mapKind, mapVariants_mapVariants rest]

end

@[simp] theorem ObjectSchema.mapKind_mapKind (o : ObjectSchema) :
    (o.mapKind f).mapKind h = o.mapKind (h ∘ f) := by
  simp [ObjectSchema.mapKind, Function.comp_def]

end Compositions

section Rewrite

variable (object : ObjectSchema → Option SchemaKind) (reference : ClassRef → SchemaKind)

theorem Schema.rewrite_eq (s : Schema) :
    s.rewrite object reference = s.mapKind (.rewrite object reference) := by
  cases s
  rfl

theorem NamedSchema.rewrite_eq (p : NamedSchema) :
    p.rewrite object reference = p.mapKind (.rewrite object reference) := by
  cases p
  simp [NamedSchema.rewrite, NamedSchema.mapKind, Schema.rewrite_eq]

theorem rewriteItem_eq (item : Option Schema) : rewriteItem object reference item =
    item.map (.mapKind (.rewrite object reference)) := by
  cases item <;> simp [rewriteItem, Schema.rewrite_eq]

theorem rewriteAdditional_eq (additional : Option Additional) :
    rewriteAdditional object reference additional =
      additional.map (.mapKind (.rewrite object reference)) := by
  rcases additional with _ | _ | item <;>
    simp [rewriteAdditional, Additional.mapKind, rewriteItem_eq]

theorem rewriteProps_eq (props : List NamedSchema) : rewriteProps object reference props =
    props.map (.mapKind (.rewrite object reference)) := by
  induction props with
  | nil => rfl
  | cons p rest ih => simp [rewriteProps, NamedSchema.rewrite_eq, ih]

mutual

theorem Variant.rewrite_eq : ∀ variant : Variant,
    variant.rewrite object reference = variant.mapKind (.rewrite object reference)
  | ⟨_, _, _, props, variants⟩ => by
    rw [Variant.rewrite, Variant.mapKind, rewriteProps_eq, rewriteVariants_eq variants]

theorem rewriteVariants_eq : ∀ variants : List Variant, rewriteVariants object reference variants =
    mapVariants (.rewrite object reference) variants
  | [] => rfl
  | variant :: rest => by
    rw [rewriteVariants, mapVariants, variant.rewrite_eq, rewriteVariants_eq rest]

end

/-- What an object holds is rewritten place by place. -/
theorem ObjectSchema.rewrite_eq (o : ObjectSchema) :
    o.rewrite object reference = o.mapKind (.rewrite object reference) := by
  cases o
  simp only [ObjectSchema.rewrite, ObjectSchema.mapKind, rewriteProps_eq, rewriteVariants_eq,
    rewriteAdditional_eq, mapVariants_eq]

end Rewrite

section Resolve

variable (names : Slot → Option String)

theorem Schema.resolve_eq (s : Schema) : s.resolve names = s.mapKind (.resolve names) := by
  cases s
  rfl

theorem NamedSchema.resolve_eq (p : NamedSchema) :
    p.resolve names = p.mapKind (.resolve names) := by
  cases p
  simp [NamedSchema.resolve, NamedSchema.mapKind, Schema.resolve_eq]

theorem resolveOption_eq (item : Option Schema) :
    resolveOption names item = item.map (.mapKind (.resolve names)) := by
  cases item <;> simp [resolveOption, Schema.resolve_eq]

theorem resolveAdditional_eq (additional : Option Additional) :
    resolveAdditional names additional = additional.map (.mapKind (.resolve names)) := by
  rcases additional with _ | _ | item <;>
    simp [resolveAdditional, Additional.mapKind, resolveOption_eq]

theorem resolveProps_eq (props : List NamedSchema) :
    resolveProps names props = props.map (.mapKind (.resolve names)) := by
  induction props with
  | nil => rfl
  | cons p rest ih => simp [resolveProps, NamedSchema.resolve_eq, ih]

mutual

theorem Variant.resolve_eq : ∀ variant : Variant,
    variant.resolve names = variant.mapKind (.resolve names)
  | ⟨_, _, _, props, variants⟩ => by
    rw [Variant.resolve, Variant.mapKind, resolveProps_eq, resolveVariants_eq variants]

theorem resolveVariants_eq : ∀ variants : List Variant,
    resolveVariants names variants = mapVariants (.resolve names) variants
  | [] => rfl
  | variant :: rest => by
    rw [resolveVariants, mapVariants, variant.resolve_eq, resolveVariants_eq rest]

end

theorem ObjectSchema.resolve_eq (o : ObjectSchema) : o.resolve names =
    { o.mapKind (.resolve names) with label := o.label.map (ClassRef.resolve names) } := by
  cases o
  simp only [ObjectSchema.resolve, ObjectSchema.mapKind, resolveProps_eq, resolveVariants_eq,
    resolveAdditional_eq, mapVariants_eq]

end Resolve

namespace SchemaKind

/-- A change to kinds that reaches classes only: it goes through arrays and through objects that are
no classes, and does not make anything of a class that values could be listed for. -/
structure Transparent (f : SchemaKind → SchemaKind) : Prop where
  scalar : ∀ {kind : SchemaKind}, kind.Scalar → f kind = kind
  array : ∀ format item, f (.array format item) = .array format (item.map (.mapKind f))
  object : ∀ o : ObjectSchema, o.label = none → f (.object o) = .object (o.mapKind f)
  objectLike : ∀ kind : SchemaKind, kind.isObjectLike → (f kind).isObjectLike

theorem withValues?_of_objectLike {kind : SchemaKind} (h : kind.isObjectLike)
    (values : List Json) : kind.withValues? values = none := by
  cases kind <;> simp_all [isObjectLike, withValues?]

namespace Transparent

variable {f h : SchemaKind → SchemaKind}

theorem comp (hf : Transparent f) (hh : Transparent h) : Transparent (h ∘ f) where
  scalar kind := by rw [Function.comp, hf.scalar kind, hh.scalar kind]
  array format item := by
    rw [Function.comp, hf.array, hh.array]
    cases item <;> rfl
  object o unlabelled := by
    have : (o.mapKind f).label = none := unlabelled
    rw [Function.comp, hf.object o unlabelled, hh.object _ this, ObjectSchema.mapKind_mapKind]
  objectLike kind isObject := hh.objectLike _ (hf.objectLike kind isObject)

theorem flat (hf : Transparent f) {kind : SchemaKind} (flat : kind.Flat) : f kind = kind := by
  cases flat with
  | scalar scalar => exact hf.scalar scalar
  | anything => exact hf.object _ rfl

/-- Where values could be listed before they can be afterwards, with the same outcome. -/
theorem withValues (hf : Transparent f) (kind : SchemaKind) (values : List Json) :
    f ((kind.withValues? values).getD kind) = ((f kind).withValues? values).getD (f kind) := by
  cases kind with
  | string | integer | float | boolean =>
    rw [hf.scalar (by constructor), hf.scalar (by constructor)]
  | array format item =>
    rw [hf.array]
    exact hf.array format item
  | object o =>
    rw [withValues?_of_objectLike rfl, withValues?_of_objectLike (hf.objectLike _ rfl)]
    rfl
  | reference target =>
    rw [withValues?_of_objectLike rfl, withValues?_of_objectLike (hf.objectLike _ rfl)]
    rfl

theorem harvest_array (hf : Transparent f) (format : Option ArrayFormat) (item : Option Schema)
    (layers : List Constraints) (collection : Option CollectionFormat) :
    f ((SchemaKind.array format item).harvest layers collection) =
      (SchemaKind.array format (item.map (.mapKind f))).harvest layers collection :=
  hf.array _ item

theorem harvest_object (hf : Transparent f) (o : ObjectSchema) (unlabelled : o.label = none)
    (layers : List Constraints) (collection : Option CollectionFormat) :
    f ((SchemaKind.object o).harvest layers collection) =
      (SchemaKind.object (o.mapKind f)).harvest layers collection :=
  hf.object _ unlabelled

end Transparent

section

variable {object : ObjectSchema → Option SchemaKind} {reference : ClassRef → SchemaKind}

theorem objectLike_rewrite (objects : ∀ o kind, object o = some kind → kind.isObjectLike)
    (references : ∀ target, (reference target).isObjectLike) (kind : SchemaKind)
    (isObject : kind.isObjectLike) : (kind.rewrite object reference).isObjectLike := by
  cases kind with
  | object o =>
    rw [rewrite]
    cases become : object o with
    | none => rfl
    | some kind => exact objects o kind become
  | reference target => exact references target
  | _ => cases isObject

/-- A rewriting is transparent if it rewrites only classes, and to objects or references. -/
theorem transparent_rewrite (unlabelled : ∀ o : ObjectSchema, o.label = none → object o = none)
    (objects : ∀ o kind, object o = some kind → kind.isObjectLike)
    (references : ∀ target, (reference target).isObjectLike) :
    Transparent (rewrite object reference) where
  scalar kind := by cases kind <;> rfl
  array _ item := by rw [rewrite, rewriteItem_eq]
  object o h := by rw [rewrite, unlabelled o h, Option.getD_none, ObjectSchema.rewrite_eq]
  objectLike := objectLike_rewrite objects references

end

theorem transparent_resolve (names : Slot → Option String) : Transparent (resolve names) where
  scalar kind := by cases kind <;> rfl
  array _ item := by rw [resolve, resolveOption_eq]
  object o h := by
    rw [resolve, ObjectSchema.resolve_eq]
    cases o
    cases h
    rfl
  objectLike kind isObject := by cases kind <;> simp_all [resolve, isObjectLike]

variable {definitions : OrderedMap String Schema}

/-- If all definitions are objects nothing but objects comes out of references. -/
theorem objectLike_unfoldReference
    (objects : ∀ name s, definitions.get? name = some s → s.kind.isObjectLike) (depth : Nat)
    (target : ClassRef) : (unfoldReference definitions depth target).isObjectLike := by
  induction depth generalizing target with
  | zero => rfl
  | succ depth ih =>
    rw [unfoldReference]
    split
    · rename_i definition found
      obtain ⟨name, -, defined⟩ := Option.bind_eq_some_iff.mp found
      exact objectLike_rewrite (by simp) ih _ (objects name definition defined)
    · rfl

theorem transparent_unfold
    (objects : ∀ name s, definitions.get? name = some s → s.kind.isObjectLike) (depth : Nat) :
    Transparent (unfold definitions depth) :=
  transparent_rewrite (fun _ _ => rfl) (by simp) (objectLike_unfoldReference objects depth)

theorem outlineObject_unlabelled (depth : Nat) {o : ObjectSchema} (h : o.label = none) :
    outlineObject depth o = none := by
  cases depth <;> simp [outlineObject, h]

theorem transparent_outline (depth : Nat) : Transparent (outline depth) := by
  refine transparent_rewrite (fun _ => outlineObject_unlabelled depth) (fun o kind become => ?_)
    fun _ => rfl
  cases depth <;>
  · obtain ⟨_, _, rfl⟩ := Option.map_eq_some_iff.mp become
    rfl

/-- What is seen of a class at the bottom is that it is there. -/
theorem outline_zero_object {o : ObjectSchema} {label : ClassRef}
    (labelled : o.label = some label) :
    outline 0 (.object o) = cut := by
  simp [outline, rewrite, outlineObject, labelled]

theorem outline_succ_object {depth : Nat} {o : ObjectSchema} {label : ClassRef}
    (labelled : o.label = some label) : outline (depth + 1) (.object o) =
      .object { o.mapKind (outline depth) with label := none, format := none } := by
  simp [outline, rewrite, outlineObject, labelled, ObjectSchema.rewrite_eq]

theorem unfold_object (depth : Nat) (o : ObjectSchema) :
    unfold definitions depth (.object o) = .object (o.mapKind (unfold definitions depth)) := by
  simp [unfold, rewrite, ObjectSchema.rewrite_eq]

theorem unfold_reference {depth : Nat} {target : ClassRef} {name : String} {definition : Schema}
    (named : target.name? = some name) (defined : definitions.get? name = some definition) :
    unfold definitions (depth + 1) (.reference target) =
      unfold definitions depth definition.kind := by
  simp [unfold, rewrite, unfoldReference, named, defined]

end SchemaKind

variable {f : SchemaKind → SchemaKind}

theorem NamedSchema.mapKind_tellingApart (hf : SchemaKind.Transparent f) (p : NamedSchema)
    (variants : List Variant) : (p.tellingApart variants).mapKind f =
      (p.mapKind f).tellingApart (variants.map (.mapKind f)) := by
  have values : (variants.map (Variant.mapKind f)).map (fun v => Json.string v.value) =
      variants.map fun v => Json.string v.value := by
    rw [List.map_map]
    exact List.map_congr_left fun v _ => by cases v; rfl
  simp only [tellingApart, mapKind, Schema.mapKind, values, List.isEmpty_map]
  split
  · rfl
  · rw [hf.withValues]

theorem map_markDiscriminator (hf : SchemaKind.Transparent f) (property : String)
    (variants : List Variant) (props : List NamedSchema) :
    (markDiscriminator property variants props).map (.mapKind f) =
      markDiscriminator property (variants.map (.mapKind f)) (props.map (.mapKind f)) := by
  induction props with
  | nil =>
    simp only [markDiscriminator, List.map_cons, List.map_nil, NamedSchema.mapKind_tellingApart hf]
    rw [NamedSchema.mapKind, Schema.mapKind, hf.scalar (by constructor)]
    rfl
  | cons p rest ih =>
    have name : (p.mapKind f).name = p.name := rfl
    simp only [markDiscriminator, List.map_cons, name]
    split <;> simp [NamedSchema.mapKind_tellingApart hf, ih]

end WireSchema
