import WireSchema.Proofs.Calls

/-! The schemas of a tree, each with the variants that it tells apart, and the values that they
list. What is listed should be of the kind of the schema, and a constant should list its one value.
-/
namespace WireSchema

namespace SchemaKind

def values? : SchemaKind → Option (List Json)
  | string _ _ values => values
  | integer _ _ values => values
  | _ => none

def isText : SchemaKind → Bool
  | string .. => true
  | _ => false

def isInteger : SchemaKind → Bool
  | integer .. => true
  | _ => false

structure Admitted (kind : SchemaKind) : Prop where
  texts : kind.isText → ∀ values ∈ kind.values?, ∀ value ∈ values, value.isString
  integers : kind.isInteger → ∀ values ∈ kind.values?, ∀ value ∈ values, value.isInteger

end SchemaKind

/-- The values of a schema agree: texts list texts and integers list integers, and a constant has a
value, which is the only one that is listed if values can be. -/
structure Schema.Coherent (s : Schema) : Prop where
  admitted : s.kind.Admitted
  constant : s.isConst → ∃ value, s.default = some value ∧
    (s.kind.isText ∨ s.kind.isInteger → s.kind.values? = some [value])

/-- A schema where it stands in a tree, with the variants that it tells apart there. -/
structure Place where
  schema : Schema
  apart : List Variant

mutual

def SchemaKind.places : SchemaKind → List Place
  | .object o => o.places
  | .array _ item => itemPlaces item
  | .reference _ => []
  | .string .. => []
  | .integer .. => []
  | .float .. => []
  | .boolean => []

def ObjectSchema.places : ObjectSchema → List Place
  | ⟨_, _, props, variants, additional, _⟩ =>
    propPlaces variants props ++ additionalPlaces additional ++ variantPlaces variants

def Schema.places (apart : List Variant) : Schema → List Place
  | ⟨kind, readOnly, nullable, isConst, default⟩ =>
    ⟨⟨kind, readOnly, nullable, isConst, default⟩, apart⟩ :: kind.places

def NamedSchema.places (level : List Variant) : NamedSchema → List Place
  | ⟨name, schema, _, _, _, _, _⟩ => schema.places (level.filter (·.property = name))

def Variant.places : Variant → List Place
  | ⟨_, _, _, props, variants⟩ => propPlaces variants props ++ variantPlaces variants

def itemPlaces : Option Schema → List Place
  | none => []
  | some schema => schema.places []

def additionalPlaces : Option Additional → List Place
  | none => []
  | some .anything => []
  | some (.items item) => itemPlaces item

def propPlaces (level : List Variant) : List NamedSchema → List Place
  | [] => []
  | prop :: rest => prop.places level ++ propPlaces level rest

def variantPlaces : List Variant → List Place
  | [] => []
  | variant :: rest => variant.places ++ variantPlaces rest

end

/-- The values of the variants suit the property by which these are told apart: it is no integer,
and if it is a constant text there is one variant, for the text itself. -/
def Place.Fits (p : Place) : Prop :=
  p.apart = [] ∨ p.schema.kind.isInteger = false ∧
    (p.schema.kind.isText → p.schema.isConst →
      ∃ text, p.apart.map (·.value) = [text] ∧ p.schema.default = some (.string text))

/-- All places are coherent, unless variants do not suit them. -/
def Sound (places : List Place) : Prop := ∀ p ∈ places, p.schema.Coherent ↔ p.Fits

theorem sound_append {a b : List Place} : Sound (a ++ b) ↔ Sound a ∧ Sound b :=
  List.forall_mem_append

theorem Schema.places_eq (s : Schema) (apart : List Variant) :
    s.places apart = ⟨s, apart⟩ :: s.kind.places := by
  cases s
  rfl

theorem NamedSchema.places_eq (p : NamedSchema) (level : List Variant) :
    p.places level = p.schema.places (level.filter (·.property = p.name)) := by
  cases p
  rfl

theorem propPlaces_eq (level : List Variant) (props : List NamedSchema) :
    propPlaces level props = props.flatMap (·.places level) := by
  induction props with
  | nil => rfl
  | cons prop rest ih => simp [propPlaces, ih]

theorem variantPlaces_eq (variants : List Variant) :
    variantPlaces variants = variants.flatMap Variant.places := by
  induction variants with
  | nil => rfl
  | cons variant rest ih => simp [variantPlaces, ih]

theorem sound_flatMap {α : Type} {f : α → List Place} {items : List α} :
    Sound (items.flatMap f) ↔ ∀ a ∈ items, Sound (f a) := List.forall_mem_flatMap

/-- Where nothing is told apart the values agree. -/
theorem sound_places {s : Schema} :
    Sound (s.places []) ↔ s.Coherent ∧ Sound s.kind.places := by
  rw [s.places_eq, Sound, List.forall_mem_cons]
  exact and_congr_left' ⟨fun agree => agree.mpr (.inl rfl), fun c => iff_of_true c (.inl rfl)⟩

namespace SchemaKind

variable {kind limited : SchemaKind} {values : List Json}

@[simp] theorem values?_harvest (layers : List Constraints) (collection : Option CollectionFormat) :
    (kind.harvest layers collection).values? = kind.values? := by
  cases kind <;> rfl

@[simp] theorem isText_harvest (layers : List Constraints) (collection : Option CollectionFormat) :
    (kind.harvest layers collection).isText = kind.isText := by
  cases kind <;> rfl

@[simp] theorem isInteger_harvest (layers : List Constraints)
    (collection : Option CollectionFormat) :
    (kind.harvest layers collection).isInteger = kind.isInteger := by
  cases kind <;> rfl

@[simp] theorem places_harvest (layers : List Constraints) (collection : Option CollectionFormat) :
    (kind.harvest layers collection).places = kind.places := by
  cases kind with
  | object o =>
    cases o
    rfl
  | _ => rfl

theorem places_withValues (kind : SchemaKind) (values : List Json) :
    ((kind.withValues? values).getD kind).places = kind.places := by
  cases kind <;> rfl

theorem Admitted.harvest (admitted : kind.Admitted) (layers : List Constraints)
    (collection : Option CollectionFormat) : (kind.harvest layers collection).Admitted where
  texts := by simpa using admitted.texts
  integers := by simpa using admitted.integers

theorem Flat.places (flat : kind.Flat) : kind.places = [] := by
  cases flat with
  | scalar scalar => cases scalar <;> rfl
  | anything => rfl

/-- The kind that values share is one that they are of, and it is not limited yet. -/
theorem spec_ofValues? (shared : ofValues? values = some kind) :
    (∀ value ∈ values, kind.admits value) ∧ kind.values? = none := by
  unfold ofValues? at shared
  split at shared
  · cases shared
    exact ⟨by simpa using ‹values.all _›, rfl⟩
  split at shared
  · cases shared
    exact ⟨by simpa using ‹values.all _›, rfl⟩
  split at shared
  · cases shared
    exact ⟨by simpa using ‹values.all _›, rfl⟩
  split at shared
  · cases shared
    exact ⟨by simpa using ‹values.all _›, rfl⟩
  · cases shared

theorem admitted_of_withValues? (limit : kind.withValues? values = some limited)
    (fit : ∀ value ∈ values, kind.admits value) :
    limited.values? = some values ∧ limited.Admitted := by
  cases kind with
  | string =>
    cases limit
    refine ⟨rfl, fun _ => ?_, nofun⟩
    rintro _ ⟨⟩
    exact fit
  | integer =>
    cases limit
    refine ⟨rfl, nofun, fun _ => ?_⟩
    rintro _ ⟨⟩
    exact fit
  | _ => cases limit

/-- No values are listed for other kinds. -/
theorem unlisted_of_withValues? (unlimited : kind.withValues? values = none) :
    kind.values? = none ∧ kind.isText = false ∧ kind.isInteger = false := by
  cases kind <;> simp_all [withValues?, values?, isText, isInteger]

theorem admitted_of_unlisted (unlisted : kind.values? = none) : kind.Admitted where
  texts := by simp [unlisted]
  integers := by simp [unlisted]

end SchemaKind

theorem coherent_of_admitted {s : Schema} (changing : s.isConst = false)
    (admitted : s.kind.Admitted) : s.Coherent := ⟨admitted, by simp [changing]⟩

theorem sound_ofKind {kind : SchemaKind} (unlisted : kind.values? = none)
    (below : Sound kind.places) : Sound ((Schema.ofKind kind).places []) :=
  sound_places.mpr
    ⟨coherent_of_admitted rfl (SchemaKind.admitted_of_unlisted unlisted), below⟩

/-- The properties of a payload are sound as they are, and no two have one name. -/
def SoundAlone (props : List NamedSchema) : Prop :=
  (props.map (·.name)).Nodup ∧ ∀ p ∈ props, Sound (p.schema.places [])

/-- Where a schema is limited to the values of variants. Texts are no values of an integer. A
constant text keeps its one value only if there is one variant, which has that value. -/
theorem coherent_limited_iff {s limited : Schema} {variants : List Variant}
    (coherent : s.Coherent) (any : variants ≠ [])
    (limit : limited = { s with
      kind := (s.kind.withValues? (variants.map fun v => .string v.value)).getD s.kind }) :
    limited.Coherent ↔ Place.Fits ⟨limited, variants⟩ := by
  obtain ⟨kind, readOnly, nullable, isConst, default⟩ := s
  obtain ⟨first, rest, rfl⟩ := List.exists_cons_of_ne_nil any
  subst limit
  cases kind with
  | string =>
    constructor
    · refine fun c => .inr ⟨rfl, fun _ const => ?_⟩
      obtain ⟨value, default, listed⟩ := c.constant const
      have alone := Option.some.inj (listed (.inl rfl))
      obtain ⟨same, rfl⟩ : Json.string first.value = value ∧ rest = [] := by simpa using alone
      exact ⟨first.value, rfl, by simpa [same] using default⟩
    · rintro (unlisted | ⟨-, alone⟩)
      · cases unlisted
      refine ⟨⟨fun _ => ?_, nofun⟩, fun const => ?_⟩
      · rintro _ ⟨⟩ value listed
        obtain ⟨v, -, rfl⟩ := List.mem_map.mp listed
        rfl
      · obtain ⟨text, values, default⟩ := alone rfl const
        obtain ⟨rfl, rfl⟩ : first.value = text ∧ rest = [] := by simpa using values
        exact ⟨_, default, fun _ => rfl⟩
  | integer =>
    refine iff_of_false (fun c => ?_) ?_
    · have fit := c.admitted.integers rfl _ rfl (.string first.value) List.mem_cons_self
      cases fit
    · rintro (unlisted | ⟨integer, -⟩)
      · cases unlisted
      · cases integer
  | _ => exact iff_of_true coherent (.inr ⟨rfl, nofun⟩)

theorem sound_tellingApart {p : NamedSchema} {variants : List Variant}
    (sound : Sound (p.schema.places [])) (level : ∀ v ∈ variants, v.property = p.name) :
    Sound ((p.tellingApart variants).places variants) := by
  obtain ⟨coherent, inner⟩ := sound_places.mp sound
  have whole : variants.filter (·.property = (p.tellingApart variants).name) = variants :=
    List.filter_eq_self.mpr fun v member => decide_eq_true (level v member)
  rw [NamedSchema.places_eq, whole]
  cases variants with
  | nil =>
    have unlimited : (p.tellingApart []).schema = p.schema := by
      cases p with | mk name schema => cases schema; rfl
    rwa [unlimited]
  | cons first rest =>
    rw [Schema.places_eq]
    have limited := coherent_limited_iff coherent (List.cons_ne_nil first rest) rfl
    exact List.forall_mem_cons.mpr ⟨limited, SchemaKind.places_withValues p.schema.kind _ ▸ inner⟩

/-- On a level only the marked property tells anything apart. -/
theorem sound_marked {property : String} {variants : List Variant} {props : List NamedSchema}
    (alone : SoundAlone props) (level : ∀ v ∈ variants, v.property = property) :
    Sound (propPlaces variants (markDiscriminator property variants props)) := by
  have other (p : NamedSchema) (differ : p.name ≠ property) :
      p.places variants = p.schema.places [] := by
    have nothing : variants.filter (·.property = p.name) = [] :=
      List.filter_eq_nil_iff.mpr fun v member => by simpa [level v member] using differ.symm
    rw [NamedSchema.places_eq, nothing]
  obtain ⟨distinct, sound⟩ := alone
  induction props with
  | nil =>
    refine sound_append.mpr ⟨sound_tellingApart ?_ level, nofun⟩
    exact sound_ofKind rfl nofun
  | cons p rest ih =>
    obtain ⟨new, distinct⟩ := List.nodup_cons.mp distinct
    obtain ⟨first, others⟩ := List.forall_mem_cons.mp sound
    unfold markDiscriminator
    split
    · rename_i same
      refine sound_append.mpr ⟨sound_tellingApart first (same ▸ level), ?_⟩
      rw [propPlaces_eq, sound_flatMap]
      intro q member
      have differ : q.name ≠ property := fun known =>
        new (List.mem_map.mpr ⟨q, member, known.trans same.symm⟩)
      exact other q differ ▸ others q member
    · rename_i differ
      exact sound_append.mpr ⟨other p differ ▸ first, ih distinct others⟩

theorem sound_unmarked {props : List NamedSchema} (alone : SoundAlone props) :
    Sound (propPlaces [] props) := by
  rw [propPlaces_eq, sound_flatMap]
  intro p member
  rw [NamedSchema.places_eq]
  exact alone.2 p member

section Resolve

variable (names : Slot → Option String)

def Place.resolve (p : Place) : Place := ⟨p.schema.resolve names, resolveVariants names p.apart⟩

theorem resolve_map_value (variants : List Variant) :
    (resolveVariants names variants).map (·.value) = variants.map (·.value) := by
  induction variants with
  | nil => rfl
  | cons variant rest ih =>
    cases variant
    rw [resolveVariants, List.map_cons, ih]
    rfl

theorem filter_resolveVariants (variants : List Variant) (name : String) :
    (resolveVariants names variants).filter (·.property = name) =
      resolveVariants names (variants.filter (·.property = name)) := by
  induction variants with
  | nil => rfl
  | cons variant rest ih =>
    have same : (variant.resolve names).property = variant.property := by
      cases variant
      rfl
    rw [resolveVariants, List.filter_cons, List.filter_cons, ih, same]
    split <;> rfl

mutual

theorem SchemaKind.places_resolve : ∀ kind : SchemaKind,
    (kind.resolve names).places = kind.places.map (·.resolve names)
  | .object o => o.places_resolve
  | .array _ item => itemPlaces_resolve item
  | .reference _ => rfl
  | .string .. => rfl
  | .integer .. => rfl
  | .float .. => rfl
  | .boolean => rfl

theorem ObjectSchema.places_resolve : ∀ o : ObjectSchema,
    (o.resolve names).places = o.places.map (·.resolve names)
  | ⟨_, _, props, variants, additional, _⟩ => by
    simp only [ObjectSchema.resolve, ObjectSchema.places, propPlaces_resolve props variants,
      additionalPlaces_resolve additional, variantPlaces_resolve variants, List.map_append]

theorem Schema.places_resolve : ∀ (s : Schema) (apart : List Variant),
    (s.resolve names).places (resolveVariants names apart) = (s.places apart).map (·.resolve names)
  | ⟨kind, _, _, _, _⟩, apart => by
    simp only [Schema.resolve, Schema.places, kind.places_resolve, List.map_cons, Place.resolve]

theorem NamedSchema.places_resolve : ∀ (p : NamedSchema) (level : List Variant),
    (p.resolve names).places (resolveVariants names level) = (p.places level).map (·.resolve names)
  | ⟨_, schema, _, _, _, _, _⟩, level => by
    simp only [NamedSchema.resolve, NamedSchema.places, filter_resolveVariants,
      schema.places_resolve]

theorem Variant.places_resolve : ∀ variant : Variant,
    (variant.resolve names).places = variant.places.map (·.resolve names)
  | ⟨_, _, _, props, variants⟩ => by
    simp only [Variant.resolve, Variant.places, propPlaces_resolve props variants,
      variantPlaces_resolve variants, List.map_append]

theorem itemPlaces_resolve : ∀ item : Option Schema,
    itemPlaces (resolveOption names item) = (itemPlaces item).map (·.resolve names)
  | none => rfl
  | some schema => schema.places_resolve []

theorem additionalPlaces_resolve : ∀ additional : Option Additional,
    additionalPlaces (resolveAdditional names additional) =
      (additionalPlaces additional).map (·.resolve names)
  | none => rfl
  | some .anything => rfl
  | some (.items item) => itemPlaces_resolve item

theorem propPlaces_resolve : ∀ (props : List NamedSchema) (level : List Variant),
    propPlaces (resolveVariants names level) (resolveProps names props) =
      (propPlaces level props).map (·.resolve names)
  | [], _ => rfl
  | prop :: rest, level => by
    simp only [resolveProps, propPlaces, prop.places_resolve level, propPlaces_resolve rest level,
      List.map_append]

theorem variantPlaces_resolve : ∀ variants : List Variant,
    variantPlaces (resolveVariants names variants) =
      (variantPlaces variants).map (·.resolve names)
  | [] => rfl
  | variant :: rest => by
    simp only [resolveVariants, variantPlaces, variant.places_resolve, variantPlaces_resolve rest,
      List.map_append]

end

theorem values_resolve (kind : SchemaKind) : (kind.resolve names).values? = kind.values? ∧
    (kind.resolve names).isText = kind.isText ∧
    (kind.resolve names).isInteger = kind.isInteger := by
  cases kind <;> exact ⟨rfl, rfl, rfl⟩

theorem coherent_resolve (s : Schema) : (s.resolve names).Coherent ↔ s.Coherent := by
  obtain ⟨kind, readOnly, nullable, isConst, default⟩ := s
  obtain ⟨values, text, integer⟩ := values_resolve names kind
  constructor
  · rintro ⟨⟨texts, integers⟩, constant⟩
    simp only [Schema.resolve, values, text, integer] at texts integers constant
    exact ⟨⟨texts, integers⟩, constant⟩
  · rintro ⟨⟨texts, integers⟩, constant⟩
    refine ⟨⟨?_, ?_⟩, ?_⟩ <;> simp only [Schema.resolve, values, text, integer]
    · exact texts
    · exact integers
    · exact constant

theorem fits_resolve (p : Place) : (p.resolve names).Fits ↔ p.Fits := by
  obtain ⟨⟨kind, readOnly, nullable, isConst, default⟩, apart⟩ := p
  obtain ⟨-, text, integer⟩ := values_resolve names kind
  have empty : resolveVariants names apart = [] ↔ apart = [] := by
    cases apart <;> simp [resolveVariants]
  simp only [Place.Fits, Place.resolve, Schema.resolve, empty, text, integer, resolve_map_value]

/-- Names for the classes change no values. -/
theorem Sound.resolve {places : List Place} (sound : Sound places) :
    Sound (places.map (·.resolve names)) := by
  rintro _ member
  obtain ⟨p, known, rfl⟩ := List.mem_map.mp member
  exact (coherent_resolve names p.schema).trans ((sound p known).trans (fits_resolve names p).symm)

def Tree.places : Tree → List Place
  | plain schema => schema.places []
  | named p => p.schema.places []

theorem Tree.places_resolve (tree : Tree) :
    (tree.resolve names).places = tree.places.map (·.resolve names) := by
  cases tree with
  | plain s => exact s.places_resolve names []
  | named p =>
    cases p
    exact Schema.places_resolve names _ []

end Resolve

end WireSchema
