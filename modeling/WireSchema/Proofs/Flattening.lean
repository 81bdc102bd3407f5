import WireSchema.Proofs.Inheritance
import WireSchema.Proofs.Sharing

/-! How the variants of a model come about. Its derived models are looked at one after the other,
and below a variant with a discriminator of its own those that it lists. What is made of a model is
told without the conversion of its properties, of which only the names are known. -/
namespace WireSchema

open ConvertM ClassTable Converter TypeGraph

namespace Converter

variable {c : Converter} {v : Visibility} {fuel fuel' : Nat} {g g' g₁ g₁' : Gathered}
  {payload : List EffectiveProperty} {own : Option String} {props : List NamedSchema}

/-- Models are the same where nothing is seen of them. -/
theorem modelWithin_cut (c : Converter) (table : ClassTable) (fuel : Nat)
    (label : TypeId → Visibility → ClassRef) :
    ModelsFollow c table (.outline 0) (.outline 0) (c.modelWithin fuel) (c.rebuild label 0) := by
  refine ⟨SchemaKind.transparent_outline 0, SchemaKind.transparent_outline 0,
    modelWithin_traces fuel, fun id v site => ⟨(modelWithin_traces fuel id v site).grows, ?_⟩⟩
  intro g s g' run _ g₀
  refine ⟨_, g₀, rfl, rfl, ?_⟩
  rcases modelWithin_cases run with ⟨slot, -, -, rfl⟩ | ⟨_, slot, object, _, _, -, -, -, -, rfl, -⟩
  · rfl
  · obtain ⟨format, body⟩ := c.body_eq (some (.shared slot none)) id site object
    rw [body]
    rfl

/-- Whether a type has a schema does not depend on the models that were met before, nor on how many
may be built inside each other. -/
theorem isSome_eq {type : TypeRef} {ctx : Context} {site : List Constraints} {a b : Option Schema}
    (run : Yields (c.typesBy (c.modelWithin fuel) type ctx site) g a g')
    (run' : Yields (c.typesBy (c.modelWithin fuel') type ctx site) g₁ b g₁') :
    a.isSome = b.isSome := by
  have plain {fuel : Nat} {g g' : Gathered} {a : Option Schema}
      (run : Yields (c.typesBy (c.modelWithin fuel) type ctx site) g a g') :
      ∃ s g₂, Yields (c.typesBy (c.rebuild (fun _ _ => .external "") 0) type ctx site) ⟨{}, []⟩ s
        g₂ ∧ a.isSome = s.isSome := by
    have below := typesWithin_follow (modelWithin_cut c g'.classes fuel fun _ _ => .external "")
      (c.graph.types.size + 2)
    obtain ⟨s, g₂, again, -, alike⟩ :=
      (below.follow type ctx site).follow g a g' run (.refl _) ⟨{}, []⟩
    exact ⟨s, g₂, again, by simpa using congrArg Option.isSome alike⟩
  obtain ⟨s, g₂, again, same⟩ := plain run
  obtain ⟨s', g₂', again', same'⟩ := plain run'
  have once := Except.ok.inj (Prod.mk.inj (again.symm.trans again')).1
  rw [same, same', once]

/-- A property has a form on the wire: a conversion of its type gives a schema. -/
def HasForm (c : Converter) (v : Visibility) (decl : Property) : Prop :=
  ∃ g s g', Yields (c.convert decl.type { visibility := v, collection := decl.collectionFormat }
    [decl.constraints]) g (some s) g'

theorem name_property {p : EffectiveProperty} {a : Option NamedSchema}
    (run : Yields (c.propertyBy (c.typesBy (c.modelWithin fuel)) p v) g a g') :
    (c.HasForm v p.decl → a.isSome) ∧ ∀ s ∈ a, s.name = p.name := by
  obtain ⟨schema, g₁, converted, rest⟩ := yields_bind.mp run
  constructor
  · rintro ⟨g₂, s, g₃, once⟩
    have there := isSome_eq converted once
    cases schema with
    | none => cases there
    | some schema =>
      obtain ⟨rfl, -⟩ := yields_pure.mp rest
      rfl
  · rintro s rfl
    cases schema with
    | none => cases (yields_pure.mp rest).1
    | some schema =>
      obtain ⟨same, -⟩ := yields_pure.mp rest
      rw [← Option.some.inj same]

/-- The schemas are those of a payload, apart from properties that have no form on the wire, and
from `own`, which is there in any case. -/
structure Shows (c : Converter) (v : Visibility) (payload : List EffectiveProperty)
    (own : Option String) (props : List NamedSchema) : Prop where
  complete : ∀ e ∈ payload, c.HasForm v e.decl → e.name ∈ props.map (·.name)
  sound : ∀ name ∈ props.map (·.name), own = some name ∨ name ∈ payload.map (·.name)
  told : ∀ name ∈ own, name ∈ props.map (·.name)

theorem shows_properties
    (run : Yields (keep (fun p => c.propertyBy (c.typesBy (c.modelWithin fuel)) p v) payload)
      g props g') : Shows c v payload none props := by
  induction payload generalizing g props g' with
  | nil =>
    obtain ⟨rfl, -⟩ := yields_pure.mp run
    exact ⟨by simp, by simp, by simp⟩
  | cons p rest ih =>
    obtain ⟨a, g₁, first, run⟩ := yields_bind.mp run
    obtain ⟨further, g₂, others, run⟩ := yields_bind.mp run
    obtain ⟨rfl, -⟩ := yields_pure.mp run
    obtain ⟨there, named⟩ := name_property first
    have shown := ih others
    refine ⟨fun e member form => ?_, fun name member => .inr ?_, by simp⟩
    · rcases List.mem_cons.mp member with rfl | later
      · obtain ⟨s, rfl⟩ := Option.isSome_iff_exists.mp (there form)
        simp [named s rfl]
      · simp only [List.map_append, List.mem_append]
        exact .inr (shown.complete e later form)
    · rw [List.map_append, List.mem_append] at member
      rcases member with here | later
      · obtain ⟨s, known, rfl⟩ := List.mem_map.mp here
        rw [named s (Option.mem_toList.mp known)]
        exact List.mem_cons_self
      · exact List.mem_cons_of_mem _ ((shown.sound name later).resolve_left nofun)

theorem mem_names_markDiscriminator {property name : String} {variants : List Variant} :
    name ∈ (markDiscriminator property variants props).map (·.name) ↔
      name = property ∨ name ∈ props.map (·.name) := by
  induction props with
  | nil => simp [markDiscriminator, NamedSchema.tellingApart]
  | cons p rest ih =>
    unfold markDiscriminator
    split
    · rename_i same
      simp [NamedSchema.tellingApart, same]
    · rw [List.map_cons, List.mem_cons, ih, List.map_cons, List.mem_cons, or_left_comm]

theorem Shows.mark (shown : Shows c v payload none props) (property : String)
    (variants : List Variant) :
    Shows c v payload (some property) (markDiscriminator property variants props) where
  complete e member form := mem_names_markDiscriminator.mpr (.inr (shown.complete e member form))
  sound name member := by
    rcases mem_names_markDiscriminator.mp member with rfl | there
    · exact .inl rfl
    · exact .inr ((shown.sound name there).resolve_left nofun)
  told name known := mem_names_markDiscriminator.mpr (.inl (Option.some.inj known).symm)

end Converter

/-- A derived model that was looked at: it gives no variant, or it gives one, for which the models
are looked at that it lists. -/
inductive Listing where
  | passed (id : TypeId)
  | variant (id : TypeId) (node : Variant) (inner : List Listing)

def Listing.node? : Listing → Option Variant
  | .passed _ => none
  | .variant _ node _ => some node

mutual

def Listing.looks (host : TypeId) : Listing → List (TypeId × TypeId)
  | .passed id => [(host, id)]
  | .variant id _ inner => (host, id) :: looksBelow id inner

def looksBelow (host : TypeId) : List Listing → List (TypeId × TypeId)
  | [] => []
  | listing :: rest => listing.looks host ++ looksBelow host rest

end

mutual

def Listing.members : Listing → List (TypeId × Variant)
  | .passed _ => []
  | .variant id node inner => (id, node) :: membersOf inner

def membersOf : List Listing → List (TypeId × Variant)
  | [] => []
  | listing :: rest => listing.members ++ membersOf rest

end

mutual

def Variant.nodes : Variant → List Variant
  | node@⟨_, _, _, _, variants⟩ => node :: variantNodes variants

def variantNodes : List Variant → List Variant
  | [] => []
  | variant :: rest => variant.nodes ++ variantNodes rest

end

namespace Converter

/-- The properties of a variant: those from below the host, without the one that tells it apart. -/
def payloadBelow (c : Converter) (chain : List TypeId) (host id : TypeId) (property : String)
    (v : Visibility) : List EffectiveProperty :=
  (c.graph.collect (chainBelow chain host id) (c.graph.discriminatorNames chain) v).filter
    (·.name ≠ property)

structure IsVariant (c : Converter) (v : Visibility) (host : TypeId) (property : String)
    (id : TypeId) (model : ModelType) (node : Variant) : Prop where
  concrete : model.template = false
  pinned : c.graph.pinnedValue? model property = some node.value
  apart : node.property = property
  props : ∃ chain, c.graph.ancestry id = .ok chain ∧
    Shows c v (c.payloadBelow chain host id property v) (model.discriminator.filter (· ≠ property))
      node.props

/-- What comes of the models that a host lists, which are told apart by `property`. The models that
were looked at before and those that have been afterwards stand around it. -/
inductive Lists (c : Converter) (v : Visibility) :
    TypeId → String → List TypeId → List String → List Listing → List TypeId → Prop
  | done {host property visited} : Lists c v host property visited [] [] visited
  | passed {host property visited name id model names tree visited'} :
      c.graph.modelNamed name = .ok (id, model) →
      (id ∈ visited ∨ model.template ∨ c.graph.pinnedValue? model property = none) →
      Lists c v host property (visited.insert id) names tree visited' →
      Lists c v host property visited (name :: names) (.passed id :: tree) visited'
  | leaf {host property visited name id model node names tree visited'} :
      c.graph.modelNamed name = .ok (id, model) → id ∉ visited →
      IsVariant c v host property id model node →
      model.discriminator.filter (· ≠ property) = none → node.variants = [] →
      Lists c v host property (id :: visited) names tree visited' →
      Lists c v host property visited (name :: names) (.variant id node [] :: tree) visited'
  | fork {host property visited name id model node own inner between names tree visited'} :
      c.graph.modelNamed name = .ok (id, model) → id ∉ visited →
      IsVariant c v host property id model node →
      model.discriminator.filter (· ≠ property) = some own →
      node.variants = inner.filterMap Listing.node? →
      Lists c v id own (id :: visited) model.derived inner between →
      Lists c v host property between names tree visited' →
      Lists c v host property visited (name :: names) (.variant id node inner :: tree) visited'

variable {c : Converter} {v : Visibility} {fuel n : Nat} {g g' : Gathered} {host id : TypeId}
  {property value : String} {visited visited' : List TypeId} {model : ModelType}

def Finds (c : Converter) (v : Visibility) (nested : VariantStep) : Prop :=
  ∀ host model property visited g found g', c.graph.model? host = some model →
    Yields (nested host property v visited) g found g' → ∃ tree,
      found.1 = tree.filterMap Listing.node? ∧
      Lists c v host property visited model.derived tree found.2

/-- A variant is told by its model, and by the tree of those that it lists if it has a discriminator
of its own. -/
theorem variant_cases {nested : VariantStep} {found : Variant × List TypeId}
    (inner : Finds c v nested) (here : c.graph.model? id = some model)
    (concrete : model.template = false) (pinned : c.graph.pinnedValue? model property = some value)
    (run : Yields (c.variant (c.typesBy (c.modelWithin n)) nested host property value v id model
      visited) g found g') :
    IsVariant c v host property id model found.1 ∧
      ((model.discriminator.filter (· ≠ property) = none ∧ found.1.variants = [] ∧
          found.2 = visited) ∨
        ∃ own tree, model.discriminator.filter (· ≠ property) = some own ∧
          found.1.variants = tree.filterMap Listing.node? ∧
          Lists c v id own visited model.derived tree found.2) := by
  obtain ⟨chain, g₁, walk, run⟩ := yields_bind.mp run
  obtain ⟨walked, rfl⟩ := yields_ofResolve.mp walk
  obtain ⟨props, g₂, converted, run⟩ := yields_bind.mp run
  have shown := shows_properties converted
  cases own : model.discriminator.filter (· ≠ property) with
  | none =>
    simp only [own, yields_pure] at run
    obtain ⟨rfl, -⟩ := run
    exact ⟨⟨concrete, pinned, rfl, chain, walked, own ▸ shown⟩, .inl ⟨rfl, rfl, rfl⟩⟩
  | some own' =>
    simp only [own] at run
    obtain ⟨⟨variants, visited'⟩, g₃, nested, run⟩ := yields_bind.mp run
    obtain ⟨rfl, -⟩ := yields_pure.mp run
    obtain ⟨tree, rfl, lists⟩ := inner id model own' visited _ _ _ here nested
    refine ⟨⟨concrete, pinned, rfl, chain, walked, own ▸ shown.mark own' _⟩, .inr ?_⟩
    exact ⟨own', tree, rfl, rfl, lists⟩

theorem addVariant_cases {nested : VariantStep} {state state' : List Variant × List TypeId}
    {name : String} {names : List String} {tree : List Listing} (inner : Finds c v nested)
    (run : Yields (c.addVariant (c.typesBy (c.modelWithin n)) nested host property v state name)
      g state' g') (rest : Lists c v host property state'.2 names tree visited') :
    ∃ listing : Listing, state'.1 = state.1 ++ listing.node?.toList ∧
      Lists c v host property state.2 (name :: names) (listing :: tree) visited' := by
  obtain ⟨⟨id, model⟩, g₁, look, run⟩ := yields_bind.mp run
  obtain ⟨named, rfl⟩ := yields_ofResolve.mp look
  by_cases old : id ∈ state.2
  · simp only [List.contains_iff_mem, old, if_true, yields_pure] at run
    obtain ⟨rfl, -⟩ := run
    exact ⟨.passed id, by simp [Listing.node?],
      .passed named (.inl old) (by simpa [old] using rest)⟩
  simp only [List.contains_iff_mem, old, if_false] at run
  by_cases template : model.template
  · simp only [template, if_true, yields_pure] at run
    obtain ⟨rfl, -⟩ := run
    exact ⟨.passed id, by simp [Listing.node?],
      .passed named (.inr (.inl template)) (by simpa [old] using rest)⟩
  simp only [template, Bool.false_eq_true, if_false] at run
  cases pinned : c.graph.pinnedValue? model property with
  | none =>
    simp only [pinned, yields_pure] at run
    obtain ⟨rfl, -⟩ := run
    exact ⟨.passed id, by simp [Listing.node?],
      .passed named (.inr (.inr pinned)) (by simpa [old] using rest)⟩
  | some value =>
    simp only [pinned] at run
    obtain ⟨⟨node, visited⟩, g₂, made, run⟩ := yields_bind.mp run
    obtain ⟨rfl, -⟩ := yields_pure.mp run
    obtain ⟨isVariant, ⟨own, leaf, rfl⟩ | ⟨own, below, found, variants, lists⟩⟩ :=
      variant_cases inner (modelNamed_ok named) (by simpa using template) pinned made
    · exact ⟨.variant id node [], rfl, .leaf named old isVariant own leaf rest⟩
    · exact ⟨.variant id node below, rfl, .fork named old isVariant found variants lists rest⟩

theorem variantsWithin_finds (c : Converter) (v : Visibility) (n fuel : Nat) :
    Finds c v (c.variantsWithin (c.typesBy (c.modelWithin n)) fuel) := by
  induction fuel with
  | zero => exact fun _ _ _ _ _ _ _ _ run => absurd run not_yields_throw
  | succ fuel ih =>
    intro host model property visited g found g' here run
    have fold (names : List String) (state : List Variant × List TypeId) {g : Gathered}
        (run : Yields (names.foldlM (c.addVariant (c.typesBy (c.modelWithin n))
          (c.variantsWithin (c.typesBy (c.modelWithin n)) fuel) host property v) state)
          g found g') :
        ∃ tree, found.1 = state.1 ++ tree.filterMap Listing.node? ∧
          Lists c v host property state.2 names tree found.2 := by
      induction names generalizing state g with
      | nil =>
        obtain ⟨rfl, -⟩ := yields_pure.mp run
        exact ⟨[], by simp, .done⟩
      | cons name rest step =>
        obtain ⟨state', g₁, first, run⟩ := yields_bind.mp run
        obtain ⟨tree, variants, lists⟩ := step state' run
        obtain ⟨listing, added, lists'⟩ := addVariant_cases ih first lists
        refine ⟨listing :: tree, ?_, lists'⟩
        rw [variants, added, List.append_assoc, List.filterMap_cons]
        cases listing.node? <;> rfl
    simp only [variantsWithin, here] at run
    simpa using fold model.derived ([], visited) run

/-- The object of a model that tells its derived models apart by `property`. -/
structure Flattens (c : Converter) (v : Visibility) (id : TypeId) (model : ModelType)
    (property : String) (tree : List Listing) (o : ObjectSchema) : Prop where
  lists : ∃ visited, Lists c v id property [id] model.derived tree visited
  variants : o.variants = tree.filterMap Listing.node?
  props : ∃ payload, c.graph.payload id v = .ok payload ∧
    Shows c v payload (some property) o.props

theorem flattens_of_objectBy {object : ObjectSchema} (here : c.graph.model? id = some model)
    (discriminator : model.discriminator = some property)
    (run : Yields (c.objectBy (c.typesBy (c.modelWithin n)) id v) g object g') :
    ∃ tree, Flattens c v id model property tree object := by
  simp only [objectBy, here, discriminator] at run
  obtain ⟨payload, g₁, collect, run⟩ := yields_bind.mp run
  obtain ⟨collected, rfl⟩ := yields_ofResolve.mp collect
  obtain ⟨props, g₂, converted, run⟩ := yields_bind.mp run
  obtain ⟨additional, g₃, -, run⟩ := yields_bind.mp run
  obtain ⟨⟨variants, visited⟩, g₄, found, run⟩ := yields_bind.mp run
  obtain ⟨rfl, -⟩ := yields_pure.mp run
  obtain ⟨tree, rfl, lists⟩ := variantsWithin_finds c v n _ _ _ _ _ _ _ _ here found
  exact ⟨tree, ⟨visited, lists⟩, rfl, payload, collected, (shows_properties converted).mark ..⟩

variable {calls : List Call} {reports : Diagnostics} {trees : List (Option Tree)}

/-- In a pass, what is stored for a class is the object of its model. -/
theorem object_of_answers (run : Yields (c.answers calls) ⟨{}, reports⟩ trees g) {slot : Slot}
    {r : ClassRecord} (known : g.classes.record? slot = some r) :
    ∃ n g₁ object g₂ label format,
      Yields (c.objectBy (c.typesBy (c.modelWithin n)) r.type r.visibility) g₁ object g₂ ∧
      r.body = some (.ofKind (.object { object with label, format })) := by
  have key : g.classes.keys[slot]? = some (r.type, r.visibility) := by simp [keys_getElem?, known]
  obtain ⟨key', built, -, body, stored⟩ := built_of_answers run key
  obtain ⟨rfl, rfl⟩ := Prod.mk.inj (Option.some.inj (key.symm.trans key'))
  obtain ⟨format, eq⟩ := c.body_eq (some (.shared slot none)) r.type _ _
  rw [eq] at body
  cases body
  exact ⟨_, _, _, _, _, _, built, (body?_of_record? known).symm.trans stored⟩

theorem flattens_of_answers (run : Yields (c.answers calls) ⟨{}, reports⟩ trees g) {slot : Slot}
    {r : ClassRecord} (known : g.classes.record? slot = some r)
    (here : c.graph.model? r.type = some model)
    (discriminator : model.discriminator = some property) :
    ∃ o tree, r.body = some (.ofKind (.object o)) ∧
      Flattens c r.visibility r.type model property tree o := by
  obtain ⟨n, g₁, object, g₂, label, format, built, stored⟩ := object_of_answers run known
  obtain ⟨tree, lists, variants, props⟩ := flattens_of_objectBy here discriminator built
  exact ⟨_, tree, stored, lists, variants, props⟩

end Converter
end WireSchema
