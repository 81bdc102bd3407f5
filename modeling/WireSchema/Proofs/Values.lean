import WireSchema.Proofs.Closure
import WireSchema.Proofs.Inheritance
import WireSchema.Proofs.Places

/-! Listed values and constants of all that is converted. What is listed for texts and integers fits
them, and a constant lists its one value, wherever a schema stands. The one exception is the
property that tells variants apart: it is made over to the values of the variants, whatever it was
before. -/
namespace WireSchema

open ConvertM ClassTable Converter

namespace ScalarChain

theorem unlisted_encodedKind? {builtin : BuiltinScalar} {encoding : String} {kind : SchemaKind}
    (h : encodedKind? builtin encoding = some kind) : kind.values? = none := by
  unfold encodedKind? at h
  split at h
  · split at h <;> cases h <;> rfl
  · cases h

theorem unlisted_kind (chain : ScalarChain) (site : List Constraints) :
    (chain.kind site).values? = none := by
  let encoded := ((site ++ chain.layers).findSome? (·.encode)).bind (encodedKind? chain.builtin)
  have unlisted : (encoded.getD (naturalKind chain.builtin)).values? = none := by
    cases found : encoded with
    | none => cases chain.builtin <;> rfl
    | some kind =>
      obtain ⟨_, _, here⟩ := Option.bind_eq_some_iff.mp found
      exact unlisted_encodedKind? here
  simp only [kind]
  split
  · rename_i text
    rw [text] at unlisted
    exact unlisted
  · exact unlisted

end ScalarChain

namespace Converter

variable (c : Converter)

theorem coherent_scalar (chain : ScalarChain) (site : List Constraints) :
    (chain.schema site).Coherent :=
  coherent_of_admitted rfl
    ((SchemaKind.admitted_of_unlisted (chain.unlisted_kind site)).harvest _ _)

theorem literal_gives (value : Json) :
    Gives (c.literal value) fun a => ∀ s ∈ a, s.Coherent := by
  unfold literal
  split
  · exact .bind .any fun _ _ => .pure nofun
  · rename_i kind shared
    have fit := (SchemaKind.spec_ofValues? shared).1
    refine .pure fun s same => ?_
    obtain rfl := Option.some.inj same
    cases limit : kind.withValues? [value] with
    | none =>
      obtain ⟨unlisted, text, integer⟩ := SchemaKind.unlisted_of_withValues? limit
      exact ⟨SchemaKind.admitted_of_unlisted unlisted,
        fun _ => ⟨value, rfl, by simp [text, integer]⟩⟩
    | some limited =>
      obtain ⟨listed, admitted⟩ := SchemaKind.admitted_of_withValues? limit fit
      exact ⟨admitted, fun _ => ⟨value, rfl, fun _ => listed⟩⟩

theorem intrinsic_gives (type : Intrinsic) (ref : TypeRef) :
    Gives (c.intrinsic type ref) fun a => ∀ s ∈ a, s.Coherent := by
  cases type with
  | null => exact .bind .any fun _ _ => .pure nofun
  | unknown =>
    refine .pure fun s same => ?_
    obtain rfl := Option.some.inj same
    exact coherent_of_admitted rfl (SchemaKind.admitted_of_unlisted rfl)
  | _ => exact .pure nofun

/-- A kind that is limited to values lists those only that it admits. -/
theorem limitTo_gives (kind : SchemaKind) (values : List Json) (owner : String)
    (fit : ∀ value ∈ values, kind.admits value) :
    Gives (c.limitTo kind values owner) SchemaKind.Admitted := by
  unfold limitTo
  split
  · rename_i limited limit
    exact .pure (SchemaKind.admitted_of_withValues? limit fit).2
  · rename_i unlimited
    have unlisted := (SchemaKind.unlisted_of_withValues? unlimited).1
    exact .bind .any fun _ _ => .pure (SchemaKind.admitted_of_unlisted unlisted)

theorem enumeration_gives (decl : EnumType) (site : List Constraints) :
    Gives (c.enumeration decl site) fun a => ∀ s ∈ a, s.Coherent := by
  unfold enumeration
  split
  · exact .bind .any fun _ _ => .pure nofun
  · rename_i kind shared
    refine (c.limitTo_gives kind _ _ (SchemaKind.spec_ofValues? shared).1).bind
      fun limited admitted => .pure fun s same => ?_
    obtain rfl := Option.some.inj same
    exact coherent_of_admitted rfl (admitted.harvest _ _)

theorem enumUnion_gives (decl : UnionType) (variants : List (TypeRef × Resolved))
    (site : List Constraints) :
    Gives (c.enumUnion decl variants site) fun a => ∀ s ∈ a, s.Coherent := by
  unfold enumUnion
  split
  · exact .bind .any fun _ _ => .pure nofun
  rename_i values scalar gathered
  split
  · exact .pure nofun
  rename_i schema chosen
  have plain : schema.isConst = false ∧ schema.kind.values? = none := by
    cases scalar with
    | some s =>
      cases chosen
      obtain ⟨chain, rfl⟩ := chain_of_gatherVariants (by simp) gathered _ rfl
      exact ⟨rfl, (SchemaKind.values?_harvest ..).trans (chain.unlisted_kind site)⟩
    | none =>
      obtain ⟨kind, shared, rfl⟩ := Option.map_eq_some_iff.mp chosen
      exact ⟨rfl, (SchemaKind.spec_ofValues? shared).2⟩
  split
  · rename_i fit
    split
    · refine .pure fun s same => ?_
      obtain rfl := Option.some.inj same
      exact coherent_of_admitted plain.1 (SchemaKind.admitted_of_unlisted plain.2)
    · refine (c.limitTo_gives _ _ _ (by simpa using fit)).bind fun limited admitted =>
        .pure fun s same => ?_
      obtain rfl := Option.some.inj same
      exact coherent_of_admitted plain.1 admitted
  · split
    · exact .bind .any fun _ _ => .pure nofun
    · exact .pure nofun

variable {types : TypeStep} {models : ModelStep}

def TypesGive (types : TypeStep) : Prop :=
  ∀ type ctx site, Gives (types type ctx site) fun a => Sound (itemPlaces a)

def ModelsGive (models : ModelStep) : Prop :=
  ∀ id v site, Gives (models id v site) fun s => Sound (s.places [])

theorem plain_gives {x : ConvertM (Option Schema)} (plain : Plain x)
    (coherent : Gives x fun a => ∀ s ∈ a, s.Coherent) : Gives x fun a => Sound (itemPlaces a) := by
  refine ⟨fun g a g' run => ?_⟩
  cases a with
  | none => exact nofun
  | some s =>
    refine sound_places.mpr ⟨coherent.known g _ g' run s rfl, ?_⟩
    rw [(plain.flat g s g' run).places]
    exact nofun

theorem scalar_sound (chain : ScalarChain) (site : List Constraints) :
    Sound (itemPlaces (some (chain.schema site))) := by
  refine sound_places.mpr ⟨coherent_scalar chain site, ?_⟩
  rw [(chain.flat_schema site).places]
  exact nofun

theorem union_gives (below : TypesGive types) (decl : UnionType) (ctx : Context)
    (site : List Constraints) :
    Gives (c.union types decl ctx site) fun a => Sound (itemPlaces a) := by
  refine Gives.any.bind fun variants _ => ?_
  have chosen (variants : List (TypeRef × Resolved)) :
      Gives (c.oneOf types decl variants ctx site) fun a => Sound (itemPlaces a) := by
    unfold oneOf
    split
    · exact .bind .any fun _ _ => .pure nofun
    · exact below ..
    · exact plain_gives (c.plain_enumUnion ..) (c.enumUnion_gives ..)
  refine (chosen _).bind fun a sound => .pure ?_
  cases a with
  | none => exact sound
  | some s =>
    obtain ⟨⟨admitted, constant⟩, inner⟩ := sound_places.mp sound
    exact sound_places.mpr ⟨⟨admitted, constant⟩, inner⟩

theorem array_gives (below : TypesGive types) (decl : ArrayType) (ctx : Context)
    (site : List Constraints) : Gives (array types decl ctx site) fun a => Sound (itemPlaces a) :=
  (below ..).bind fun _ sound => .pure (sound_ofKind rfl sound)

theorem additional_gives (below : TypesGive types) (model : ModelType) (v : Visibility) :
    Gives (c.additional types model v) fun a => Sound (additionalPlaces a) := by
  unfold additional
  split
  · exact .pure nofun
  · split
    · exact .pure nofun
    · exact (below ..).bind fun _ sound => .pure sound

theorem record_gives (below : TypesGive types) (model : ModelType) (v : Visibility)
    (site : List Constraints) :
    Gives (c.record types model v site) fun a => Sound (itemPlaces a) := by
  refine (c.additional_gives below model v).bind fun additional sound => .pure ?_
  refine sound_ofKind (SchemaKind.values?_harvest ..) ?_
  rw [SchemaKind.places_harvest]
  simpa [SchemaKind.places, ObjectSchema.places, propPlaces, variantPlaces] using sound

theorem linked_gives (below : TypesGive types) (link : PropertyLink) (ctx : Context)
    (site : List Constraints) :
    Gives (c.linked types link ctx site) fun a => Sound (itemPlaces a) := by
  refine Gives.any.bind fun found _ => ?_
  dsimp only
  split
  · exact .throw
  · exact below ..

theorem declared_gives (known : ModelsGive models) (below : TypesGive types) (id : TypeId)
    (decl : Declaration) (ctx : Context) (site : List Constraints) :
    Gives (c.declared models types id decl ctx site) fun a => Sound (itemPlaces a) := by
  unfold declared
  cases decl with
  | scalar _ => exact Gives.any.bind fun chain _ => .pure (scalar_sound chain site)
  | model model =>
    simp only
    split
    · exact c.record_gives below ..
    · exact (known ..).bind fun s sound => .pure sound
  | array decl => exact array_gives below ..
  | union decl => exact c.union_gives below ..
  | enum decl => exact plain_gives (c.plain_enumeration ..) (c.enumeration_gives ..)
  | property link => exact c.linked_gives below ..

theorem typeStep_gives (known : ModelsGive models) (below : TypesGive types) :
    TypesGive (c.typeStep models types) := by
  intro type ctx site
  refine Gives.any.bind fun resolved _ => ?_
  cases resolved with
  | declared id decl => exact c.declared_gives known below ..
  | builtin builtin => exact .pure (scalar_sound (ScalarChain.ofBuiltin builtin) site)
  | intrinsic intrinsic => exact plain_gives (c.plain_intrinsic ..) (c.intrinsic_gives ..)
  | literal value => exact plain_gives (c.plain_literal _) (c.literal_gives _)

theorem typesWithin_gives (known : ModelsGive models) (fuel : Nat) :
    TypesGive (c.typesWithin models fuel) := by
  induction fuel with
  | zero => exact fun _ _ _ => .throw
  | succ fuel ih => exact c.typeStep_gives known ih

theorem propertyBy_gives (below : TypesGive types) (p : EffectiveProperty) (v : Visibility) :
    Gives (c.propertyBy types p v) fun a => ∀ s ∈ a, s.name = p.name ∧
      Sound (s.schema.places []) := by
  refine (below ..).bind fun schema sound => ?_
  cases schema with
  | none => exact .pure nofun
  | some schema =>
    refine .pure fun s same => ?_
    obtain rfl := Option.some.inj same
    obtain ⟨⟨admitted, constant⟩, inner⟩ := sound_places.mp sound
    refine ⟨rfl, sound_places.mpr ⟨⟨admitted, fun const => ?_⟩, inner⟩⟩
    obtain ⟨value, default, listed⟩ := constant const
    exact ⟨value, by simp [default], listed⟩

theorem properties_give (below : TypesGive types) {payload : List EffectiveProperty}
    (v : Visibility) (distinct : (payload.map (·.name)).Nodup) :
    Gives (keep (fun p => c.propertyBy types p v) payload) SoundAlone := by
  have each : Gives (keep (fun p => c.propertyBy types p v) payload) fun props =>
      (props.map (·.name)).Sublist (payload.map (·.name)) ∧
        ∀ p ∈ props, Sound (p.schema.places []) := by
    clear distinct
    induction payload with
    | nil => exact .pure ⟨.slnil, nofun⟩
    | cons p rest ih =>
      refine (c.propertyBy_gives below p v).bind fun a first => ih.bind fun props others => .pure ?_
      cases a with
      | none => exact ⟨others.1.cons _, others.2⟩
      | some s =>
        obtain ⟨name, sound⟩ := first s rfl
        refine ⟨?_, List.forall_mem_cons.mpr ⟨sound, others.2⟩⟩
        simpa [name] using others.1
  refine ⟨fun g props g' run => ?_⟩
  obtain ⟨names, sound⟩ := each.known g props g' run
  exact ⟨names.nodup distinct, sound⟩

def VariantsGive (nested : VariantStep) : Prop :=
  ∀ host property v visited, Gives (nested host property v visited) fun found =>
    (∀ node ∈ found.1, node.property = property) ∧ Sound (variantPlaces found.1)

theorem variant_gives {nested : VariantStep} (below : TypesGive types) (inner : VariantsGive nested)
    (host : TypeId) (property value : String) (v : Visibility) (id : TypeId) (model : ModelType)
    (visited : List TypeId) :
    Gives (c.variant types nested host property value v id model visited) fun found =>
      found.1.property = property ∧ Sound found.1.places := by
  refine Gives.any.bind fun chain _ => ?_
  let payload := c.graph.collect (chainBelow chain host id) (c.graph.discriminatorNames chain) v
  have distinct : ((payload.filter (·.name ≠ property)).map (·.name)).Nodup :=
    (c.graph.nodup_collect ..).sublist (List.filter_sublist.map _)
  refine (c.properties_give below v distinct).bind fun props alone => ?_
  split
  · refine .pure ⟨rfl, ?_⟩
    simpa [Variant.places, variantPlaces] using sound_unmarked alone
  · refine (inner ..).bind fun found level => .pure ⟨rfl, ?_⟩
    exact sound_append.mpr ⟨sound_marked alone level.1, level.2⟩

theorem addVariant_gives {nested : VariantStep} (below : TypesGive types)
    (inner : VariantsGive nested) (host : TypeId) (property : String) (v : Visibility)
    (state : List Variant × List TypeId) (name : String)
    (level : (∀ node ∈ state.1, node.property = property) ∧ Sound (variantPlaces state.1)) :
    Gives (c.addVariant types nested host property v state name) fun found =>
      (∀ node ∈ found.1, node.property = property) ∧ Sound (variantPlaces found.1) := by
  refine Gives.any.bind fun target _ => ?_
  dsimp only
  split
  · exact .pure level
  split
  · exact .pure level
  split
  · exact .pure level
  · refine (c.variant_gives below inner ..).bind fun found more => .pure ⟨?_, ?_⟩
    · rintro node member
      rcases List.mem_append.mp member with old | new
      · exact level.1 node old
      · rw [List.mem_singleton.mp new]
        exact more.1
    · rw [variantPlaces_eq, List.flatMap_append, List.flatMap_singleton, ← variantPlaces_eq]
      exact sound_append.mpr ⟨level.2, more.2⟩

theorem variantsWithin_give (below : TypesGive types) (fuel : Nat) :
    VariantsGive (c.variantsWithin types fuel) := by
  induction fuel with
  | zero => exact fun _ _ _ _ => .throw
  | succ fuel ih =>
    intro host property v visited
    unfold variantsWithin
    split
    · exact .pure ⟨nofun, nofun⟩
    · exact .foldlM (fun state name => c.addVariant_gives below ih host property v state name) _
        ⟨nofun, nofun⟩

theorem objectBy_gives (below : TypesGive types) (id : TypeId) (v : Visibility) :
    Gives (c.objectBy types id v) fun object => Sound object.places := by
  unfold objectBy
  split
  · exact .throw
  · refine Gives.ofResolve.bind fun payload collected => ?_
    refine (c.properties_give below v (c.graph.nodup_payload collected)).bind fun props alone => ?_
    refine (c.additional_gives below ..).bind fun additional sound => ?_
    split
    · refine .pure ?_
      exact sound_append.mpr ⟨sound_append.mpr ⟨sound_unmarked alone, sound⟩, nofun⟩
    · refine (c.variantsWithin_give below _ _ _ _ _).bind fun found level => .pure ?_
      exact sound_append.mpr ⟨sound_append.mpr ⟨sound_marked alone level.1, sound⟩, level.2⟩

theorem sound_body {label : Option ClassRef} {id : TypeId} {site : List Constraints}
    {object : ObjectSchema} (sound : Sound object.places) :
    Sound ((c.body label id site object).places []) := by
  refine sound_ofKind (SchemaKind.values?_harvest ..) ?_
  rw [SchemaKind.places_harvest]
  cases object
  exact sound

theorem modelWithin_gives (fuel : Nat) : ModelsGive (c.modelWithin fuel) := by
  induction fuel with
  | zero => exact fun _ _ _ => .throw
  | succ fuel ih =>
    intro id v site
    refine Gives.any.bind fun met _ => ?_
    obtain ⟨slot, count⟩ := met
    dsimp only
    split
    · exact .pure (sound_ofKind rfl nofun)
    · refine (c.objectBy_gives (c.typesWithin_gives ih _) id v).bind fun object sound => ?_
      exact Gives.any.bind fun _ _ => .pure (c.sound_body sound)

theorem answer_gives (call : Call) :
    Gives (c.answer call) fun tree => ∀ t ∈ tree, Sound t.places := by
  have models : ModelsGive c.models := c.modelWithin_gives _
  have types : TypesGive c.convert := c.typesWithin_gives models _
  cases call with
  | type type ctx site =>
    refine (types ..).bind fun a sound => .pure fun t known => ?_
    obtain ⟨s, rfl, rfl⟩ := Option.map_eq_some_iff.mp known
    exact sound
  | property p ctx =>
    refine (c.propertyBy_gives types p ctx.visibility).bind fun a sound => .pure fun t known => ?_
    obtain ⟨s, rfl, rfl⟩ := Option.map_eq_some_iff.mp known
    exact (sound s rfl).2
  | model id ctx site =>
    refine (models ..).bind fun s sound => .pure fun t known => ?_
    obtain rfl := Option.some.inj known
    exact sound

theorem answers_give (calls : List Call) :
    Gives (c.answers calls) fun trees => ∀ tree ∈ trees, ∀ t ∈ tree, Sound t.places := by
  unfold answers
  induction calls with
  | nil => exact .pure nofun
  | cons call rest ih =>
    rw [List.mapM_cons]
    exact (c.answer_gives call).bind fun tree first => ih.bind fun trees others =>
      .pure (List.forall_mem_cons.mpr ⟨first, others⟩)

variable {c} in
theorem sound_stored {calls : List Call} {reports : Diagnostics} {trees : List (Option Tree)}
    {g : Gathered} (run : Yields (c.answers calls) ⟨{}, reports⟩ trees g) {slot : Slot}
    {body : Schema} (stored : g.classes.body? slot = some body) : Sound (body.places []) := by
  obtain ⟨r, known, -⟩ := Option.bind_eq_some_iff.mp stored
  have key : g.classes.keys[slot]? = some (r.type, r.visibility) := by simp [keys_getElem?, known]
  obtain ⟨-, built, -, made, stored'⟩ := built_of_answers run key
  obtain rfl := Option.some.inj (stored.symm.trans stored')
  rw [← made]
  refine c.sound_body ((c.objectBy_gives ?_ _ _).known _ _ _ built)
  exact c.typesWithin_gives (c.modelWithin_gives _) _

/-- All values agree that a pass gives, in its trees and in its definitions: listed values are of
their kind, and a constant lists its one value. Only a property that tells variants apart may be
incoherent; it is exactly if the variants' values do not suit it. -/
theorem coherent_iff_variants_fit (c : Converter) (calls : List Call) (reports : Diagnostics)
    (stage : Stage) {trees : List (Option Tree)} {g : Gathered}
    (run : Yields (c.answers calls) ⟨{}, reports⟩ trees g) :
    let names := (g.classes.finalize c.graph stage).nameOf
    (∀ tree, some tree ∈ trees → ∀ p ∈ (tree.resolve names).places,
      p.schema.Coherent ↔ p.Fits) ∧
    ∀ entry ∈ (g.classes.finalize c.graph stage).definitions.entries,
      ∀ p ∈ entry.2.places [], p.schema.Coherent ↔ p.Fits := by
  intro names
  constructor
  · intro tree member
    rw [tree.places_resolve]
    exact ((c.answers_give calls).known _ _ _ run _ member tree rfl).resolve names
  · rintro ⟨name, definition⟩ member
    obtain ⟨slot, body, stored, -, rfl⟩ := stored_of_mem_definitions member
    have same := body.places_resolve names []
    exact same ▸ (sound_stored run stored).resolve names

def figures : Converter where
  target := "Figure"
  graph := {
    version := "1"
    types := .ofEntries [
      ("Figure", .model {
        discriminator := some "kind"
        derived := ["Disc"]
        properties := .ofEntries [
          ("kind", { type := .literal (.string "figure") }),
          ("sides", { type := .literal (.integer 0) })] }),
      ("Disc", .model {
        base := some "Figure"
        properties := .ofEntries [("kind", { type := .literal (.string "disc") })] })] }

def figuresCalls : List Call := [.type (.named "Figure") { visibility := .read } []]

/-- The constant that tells nothing apart is as it should be. -/
theorem figures_sides_coherent : ∃ trees g tree p,
    Yields (figures.answers figuresCalls) ⟨{}, []⟩ trees g ∧ some tree ∈ trees ∧
    p ∈ (tree.resolve (g.classes.finalize figures.graph .read).nameOf).places ∧
    p.schema.isConst ∧ p.schema.default = some (.integer 0) ∧ p.schema.Coherent := by
  refine ⟨_, _, _, _, rfl, List.mem_cons_self, List.mem_of_getElem? (i := 2) rfl, rfl, rfl, ?_⟩
  exact ((coherent_iff_variants_fit figures figuresCalls [] .read rfl).1 _ List.mem_cons_self _
    (List.mem_of_getElem? (i := 2) rfl)).mpr (.inl rfl)

/-- The kind of a figure is a constant that lists the kind of a disc. -/
theorem figures_kind_incoherent : ∃ trees g tree p,
    Yields (figures.answers figuresCalls) ⟨{}, []⟩ trees g ∧ some tree ∈ trees ∧
    p ∈ (tree.resolve (g.classes.finalize figures.graph .read).nameOf).places ∧
    p.schema.isConst ∧ p.schema.default = some (.string "figure") ∧
    p.schema.kind.values? = some [.string "disc"] ∧ ¬ p.schema.Coherent := by
  refine ⟨_, _, _, _, rfl, List.mem_cons_self, List.mem_of_getElem? (i := 1) rfl, rfl, rfl, rfl, ?_⟩
  intro coherent
  obtain ⟨value, default, listed⟩ := coherent.constant rfl
  cases default
  have wrong : some [Json.string "disc"] = some [.string "figure"] := listed (.inl rfl)
  simp at wrong

end Converter
end WireSchema
