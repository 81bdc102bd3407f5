import WireSchema.Proofs.Values
import WireSchema.Proofs.Variants

/-! Levels of variants. On every level one property tells the variants apart. It is there once, it
is required, and it lists the values of the variants. No model gives a variant on two levels. -/
namespace WireSchema

open ConvertM ClassTable Converter TypeGraph

/-- The properties and the variants of a level, which are told apart by `property`. -/
structure IsLevel (property : String) (props : List NamedSchema) (variants : List Variant) :
    Prop where
  told : ∃ p, props.filter (·.name = property) = [p] ∧ p.required ∧
    (p.schema.kind.isText → variants ≠ [] →
      p.schema.kind.values? = some (variants.map fun node => .string node.value))
  apart : ∀ node ∈ variants, node.property = property

section Level

variable {property : String} {props : List NamedSchema} {variants : List Variant}

theorem values?_tellingApart (p : NamedSchema) (any : variants ≠ [])
    (text : (p.tellingApart variants).schema.kind.isText) :
    (p.tellingApart variants).schema.kind.values? =
      some (variants.map fun node => .string node.value) := by
  have limited : (p.tellingApart variants).schema.kind =
      (p.schema.kind.withValues? (variants.map fun node => .string node.value)).getD
        p.schema.kind := by
    simp [NamedSchema.tellingApart, any]
  rw [limited] at text ⊢
  cases kind : p.schema.kind with
  | string => rfl
  | _ => simp [kind, SchemaKind.withValues?, SchemaKind.isText] at text

/-- A property is marked once, and it is the only one of its name. -/
theorem isLevel_markDiscriminator (distinct : (props.map (·.name)).Nodup)
    (apart : ∀ node ∈ variants, node.property = property) :
    IsLevel property (markDiscriminator property variants props) variants := by
  refine ⟨?_, apart⟩
  have marked (p : NamedSchema) : (p.tellingApart variants).required ∧
      ((p.tellingApart variants).schema.kind.isText → variants ≠ [] →
        (p.tellingApart variants).schema.kind.values? =
          some (variants.map fun node => .string node.value)) :=
    ⟨rfl, fun text any => values?_tellingApart p any text⟩
  induction props with
  | nil =>
    let text : NamedSchema := { name := property, schema := .ofKind (.ofStringType .string) }
    have here : (text.tellingApart variants).name = property := rfl
    have only : markDiscriminator property variants [] = [text.tellingApart variants] := rfl
    exact ⟨_, by simp [only, here], marked text⟩
  | cons p rest ih =>
    obtain ⟨new, distinct⟩ := List.nodup_cons.mp distinct
    unfold markDiscriminator
    split
    · rename_i same
      have others : rest.filter (·.name = property) = [] := by
        refine List.filter_eq_nil_iff.mpr fun q member => ?_
        simpa using fun known : q.name = property =>
          new (List.mem_map.mpr ⟨q, member, known.trans same.symm⟩)
      have here : (p.tellingApart variants).name = property := same
      exact ⟨_, by simp [here, others], marked p⟩
    · rename_i differ
      obtain ⟨q, alone, mark⟩ := ih distinct
      exact ⟨q, by simpa [differ] using alone, mark⟩

end Level

def Levelled (nodes : List Variant) : Prop :=
  ∀ node ∈ nodes, node.variants ≠ [] → ∃ own, IsLevel own node.props node.variants

namespace Converter

variable (c : Converter) {types : TypeStep}

def LevelsGive (nested : VariantStep) : Prop :=
  ∀ host property v visited, Gives (nested host property v visited) fun found =>
    (∀ node ∈ found.1, node.property = property) ∧ Levelled (variantNodes found.1)

theorem variant_levelled {nested : VariantStep} (below : TypesGive types)
    (inner : LevelsGive nested) (host : TypeId) (property value : String) (v : Visibility)
    (id : TypeId) (model : ModelType) (visited : List TypeId) :
    Gives (c.variant types nested host property value v id model visited) fun found =>
      found.1.property = property ∧ Levelled found.1.nodes := by
  refine Gives.any.bind fun chain _ => ?_
  let payload := c.graph.collect (chainBelow chain host id) (c.graph.discriminatorNames chain) v
  have distinct : ((payload.filter (·.name ≠ property)).map (·.name)).Nodup :=
    (c.graph.nodup_collect ..).sublist (List.filter_sublist.map _)
  refine (c.properties_give below v distinct).bind fun props alone => ?_
  split
  · refine .pure ⟨rfl, ?_⟩
    simp [Levelled, Variant.nodes_eq, variantNodes]
  · refine (inner ..).bind fun found level => .pure ⟨rfl, ?_⟩
    rw [Variant.nodes_eq]
    exact List.forall_mem_cons.mpr
      ⟨fun _ => ⟨_, isLevel_markDiscriminator alone.1 level.1⟩, level.2⟩

theorem variantNodes_concat (variants : List Variant) (node : Variant) :
    variantNodes (variants ++ [node]) = variantNodes variants ++ node.nodes := by
  induction variants with
  | nil => simp [variantNodes]
  | cons first rest ih => simp [variantNodes, ih]

theorem addVariant_levelled {nested : VariantStep} (below : TypesGive types)
    (inner : LevelsGive nested) (host : TypeId) (property : String) (v : Visibility)
    (state : List Variant × List TypeId) (name : String)
    (level : (∀ node ∈ state.1, node.property = property) ∧ Levelled (variantNodes state.1)) :
    Gives (c.addVariant types nested host property v state name) fun found =>
      (∀ node ∈ found.1, node.property = property) ∧ Levelled (variantNodes found.1) := by
  refine Gives.any.bind fun target _ => ?_
  dsimp only
  split
  · exact .pure level
  split
  · exact .pure level
  split
  · exact .pure level
  · refine (c.variant_levelled below inner ..).bind fun found more => .pure ⟨?_, ?_⟩
    · exact List.forall_mem_append.mpr ⟨level.1, by simpa using more.1⟩
    · rw [variantNodes_concat]
      exact List.forall_mem_append.mpr ⟨level.2, more.2⟩

theorem variantsWithin_levelled (below : TypesGive types) (fuel : Nat) :
    LevelsGive (c.variantsWithin types fuel) := by
  induction fuel with
  | zero => exact fun _ _ _ _ => .throw
  | succ fuel ih =>
    intro host property v visited
    unfold variantsWithin
    split
    · exact .pure ⟨nofun, nofun⟩
    · exact .foldlM (fun state name => c.addVariant_levelled below ih host property v state name) _
        ⟨nofun, nofun⟩

/-- The object of a model with a discriminator is a level, and so are those below it. -/
theorem objectBy_levelled (below : TypesGive types) {id : TypeId} {model : ModelType}
    {property : String} (here : c.graph.model? id = some model)
    (discriminator : model.discriminator = some property) (v : Visibility) :
    Gives (c.objectBy types id v) fun o =>
      IsLevel property o.props o.variants ∧ Levelled (variantNodes o.variants) := by
  simp only [objectBy, here, discriminator]
  refine Gives.ofResolve.bind fun payload collected => ?_
  refine (c.properties_give below v (c.graph.nodup_payload collected)).bind fun props alone => ?_
  refine Gives.any.bind fun additional _ => ?_
  refine (c.variantsWithin_levelled below _ _ _ _ _).bind fun found level => .pure ?_
  exact ⟨isLevel_markDiscriminator alone.1 level.1, level.2⟩

end Converter

def TypeGraph.idsNamed (graph : TypeGraph) (names : List String) : List TypeId :=
  names.filterMap fun name => (graph.modelNamed name).toOption.map Prod.fst

def Listing.giver? : Listing → Option TypeId
  | .passed _ => none
  | .variant id _ _ => some id

/-- A variant in a tree, with the model that gives it and with what that lists. -/
structure Branch where
  id : TypeId
  node : Variant
  inner : List Listing

mutual

def Listing.branches : Listing → List Branch
  | .passed _ => []
  | .variant id node inner => ⟨id, node, inner⟩ :: branchesOf inner

def branchesOf : List Listing → List Branch
  | [] => []
  | listing :: rest => listing.branches ++ branchesOf rest

end

mutual

theorem Listing.map_branches :
    ∀ listing : Listing, listing.branches.map (fun b => (b.id, b.node)) = listing.members
  | .passed _ => rfl
  | .variant _ _ inner => by
    rw [Listing.branches, Listing.members, List.map_cons, map_branchesOf inner]

theorem map_branchesOf :
    ∀ tree : List Listing, (branchesOf tree).map (fun b => (b.id, b.node)) = membersOf tree
  | [] => rfl
  | listing :: rest => by
    rw [branchesOf, membersOf, List.map_append, listing.map_branches, map_branchesOf rest]

end

def givers (tree : List Listing) : List TypeId := tree.filterMap Listing.giver?

/-- Each item of a list stands in another list, for the first time after those before it. -/
def InOrderOf (all items : List TypeId) : Prop :=
  (∀ id ∈ items, id ∈ all) ∧ items.Pairwise fun a b => all.idxOf a < all.idxOf b

section Order

variable {all items : List TypeId} {id : TypeId}

/-- One more item in front is no matter, as long as it is none of those in question. -/
theorem InOrderOf.skip (order : InOrderOf all items) (new : id ∉ items) :
    InOrderOf (id :: all) items := by
  refine ⟨fun a member => List.mem_cons_of_mem _ (order.1 a member), ?_⟩
  refine order.2.imp_of_mem fun {a b} left right before => ?_
  have apart {a : TypeId} (member : a ∈ items) : (id == a) = false :=
    beq_eq_false_iff_ne.mpr fun same => new (same ▸ member)
  simpa [List.idxOf_cons, apart left, apart right] using before

theorem InOrderOf.cons (order : InOrderOf all items) (new : id ∉ items) :
    InOrderOf (id :: all) (id :: items) := by
  have later := order.skip new
  refine ⟨List.forall_mem_cons.mpr ⟨List.mem_cons_self, later.1⟩, ?_⟩
  refine List.pairwise_cons.mpr ⟨fun a member => ?_, later.2⟩
  have apart : (id == a) = false := beq_eq_false_iff_ne.mpr fun same => new (same ▸ member)
  simp [List.idxOf_cons, apart]

end Order

namespace TypeGraph

variable {graph : TypeGraph} {id : TypeId} {model : ModelType} {name : String}

theorem idsNamed_cons (named : graph.modelNamed name = .ok (id, model)) (names : List String) :
    graph.idsNamed (name :: names) = id :: graph.idsNamed names := by
  rw [idsNamed, List.filterMap_cons, named]
  rfl

end TypeGraph

namespace Converter

variable {c : Converter} {v : Visibility} {host id : TypeId} {property : String}
  {visited visited' : List TypeId} {names : List String} {tree : List Listing}

/-- The models that give the variants of a tree are looked at there, and for the first time. No
model gives two. -/
theorem Lists.members_apart (lists : Lists c v host property visited names tree visited') :
    ((membersOf tree).map Prod.fst).Nodup ∧
      ∀ id ∈ (membersOf tree).map Prod.fst, id ∉ visited ∧ id ∈ visited' := by
  induction lists with
  | done => exact ⟨.nil, nofun⟩
  | passed _ _ _ rest =>
    refine ⟨rest.1, fun id member => ?_⟩
    obtain ⟨new, seen⟩ := rest.2 id member
    exact ⟨fun old => new (List.mem_insert_of_mem old), seen⟩
  | @leaf _ _ visited _ id _ _ _ tree visited' _ new _ _ _ lists rest =>
    rw [membersOf_variant, List.map_cons, List.map_append]
    simp only [membersOf, List.map_nil, List.nil_append]
    refine ⟨List.nodup_cons.mpr ⟨fun again => ?_, rest.1⟩, ?_⟩
    · exact (rest.2 id again).1 List.mem_cons_self
    · refine List.forall_mem_cons.mpr ⟨⟨new, ?_⟩, fun other member => ?_⟩
      · exact lists.mem_visited.mpr (.inl List.mem_cons_self)
      · obtain ⟨new, seen⟩ := rest.2 other member
        exact ⟨fun old => new (List.mem_cons_of_mem _ old), seen⟩
  | @fork _ _ visited _ id _ _ _ below between _ tree visited' _ new _ _ _ lists lists' inner
      rest =>
    rw [membersOf_variant, List.map_cons, List.map_append]
    have kept {other : TypeId} (old : other ∈ id :: visited) : other ∈ between :=
      lists.mem_visited.mpr (.inl old)
    have seen {other : TypeId} (early : other ∈ between) : other ∈ visited' :=
      lists'.mem_visited.mpr (.inl early)
    have each : ∀ other ∈ (membersOf below).map Prod.fst ++ (membersOf tree).map Prod.fst,
        other ∉ id :: visited ∧ other ∈ visited' := by
      refine List.forall_mem_append.mpr ⟨fun other member => ?_, fun other member => ?_⟩
      · exact ⟨(inner.2 other member).1, seen (inner.2 other member).2⟩
      · exact ⟨fun old => (rest.2 other member).1 (kept old), (rest.2 other member).2⟩
    constructor
    · refine List.nodup_cons.mpr ⟨fun again => (each id again).1 List.mem_cons_self, ?_⟩
      refine List.nodup_append.mpr ⟨inner.1, rest.1, ?_⟩
      rintro other early _ late rfl
      exact (rest.2 other late).1 (inner.2 other early).2
    · refine List.forall_mem_cons.mpr ⟨⟨new, seen (kept List.mem_cons_self)⟩, ?_⟩
      exact fun other member =>
        ⟨fun old => (each other member).1 (List.mem_cons_of_mem _ old), (each other member).2⟩

theorem mem_members_of_giver (member : id ∈ givers tree) : id ∈ (membersOf tree).map Prod.fst := by
  obtain ⟨listing, inside, gives⟩ := List.mem_filterMap.mp member
  induction tree with
  | nil => cases inside
  | cons first rest ih =>
    rw [membersOf, List.map_append, List.mem_append]
    rcases List.mem_cons.mp inside with rfl | later
    · cases listing <;> cases gives
      exact .inl List.mem_cons_self
    · exact .inr (ih (List.mem_filterMap.mpr ⟨listing, later, gives⟩) later)

/-- Models give the variants of a level in the order in which they are listed first. -/
theorem Lists.inOrder (lists : Lists c v host property visited names tree visited') :
    InOrderOf (c.graph.idsNamed names) (givers tree) := by
  induction lists with
  | done => exact ⟨nofun, .nil⟩
  | @passed _ _ _ _ id _ _ tree _ named _ lists rest =>
    rw [idsNamed_cons named]
    exact rest.skip fun member =>
      (lists.members_apart.2 id (mem_members_of_giver member)).1 List.mem_insert_self
  | @leaf _ _ _ _ id _ _ _ tree _ named _ _ _ _ lists rest =>
    rw [idsNamed_cons named]
    exact rest.cons fun member =>
      (lists.members_apart.2 id (mem_members_of_giver member)).1 List.mem_cons_self
  | @fork _ _ _ _ id _ _ _ _ _ _ tree _ named _ _ _ _ lists lists' _ rest =>
    rw [idsNamed_cons named]
    refine rest.cons fun member =>
      (lists'.members_apart.2 id (mem_members_of_giver member)).1 ?_
    exact lists.mem_visited.mpr (.inl List.mem_cons_self)

theorem Lists.apart (lists : Lists c v host property visited names tree visited') :
    ∀ node ∈ tree.filterMap Listing.node?, node.property = property := by
  induction lists with
  | done => exact nofun
  | passed _ _ _ rest => exact rest
  | leaf _ _ isVariant _ _ _ rest => exact List.forall_mem_cons.mpr ⟨isVariant.apart, rest⟩
  | fork _ _ isVariant _ _ _ _ _ rest => exact List.forall_mem_cons.mpr ⟨isVariant.apart, rest⟩

theorem Lists.branch (lists : Lists c v host property visited names tree visited') {b : Branch}
    (member : b ∈ branchesOf tree) (any : b.node.variants ≠ []) :
    ∃ model own visited visited', c.graph.model? b.id = some model ∧
      model.discriminator.filter (· ≠ b.node.property) = some own ∧
      b.node.variants = b.inner.filterMap Listing.node? ∧
      Lists c v b.id own visited model.derived b.inner visited' := by
  induction lists with
  | done => cases member
  | passed _ _ _ rest => exact rest member
  | leaf _ _ _ _ alone _ rest =>
    rcases List.mem_cons.mp member with rfl | later
    · exact absurd alone any
    · exact rest later
  | fork named _ isVariant found below lists _ inner rest =>
    rcases List.mem_cons.mp member with rfl | later
    · exact ⟨_, _, _, _, modelNamed_ok named, isVariant.apart ▸ found, below, lists⟩
    · exact (List.mem_append.mp later).elim inner rest

/-- What a model lists is a level for its discriminator. -/
structure MakesLevel (c : Converter) (id : TypeId) (tree : List Listing) (property : String)
    (props : List NamedSchema) (variants : List Variant) : Prop
    extends IsLevel property props variants where
  discriminator : c.graph.discriminator? id = some property
  given : variants = tree.filterMap Listing.node?
  inOrder : ∃ model, c.graph.model? id = some model ∧
    InOrderOf (c.graph.idsNamed model.derived) (givers tree)

/-- A level by some property is one by the property that its variants have. -/
theorem Lists.makesLevel {model : ModelType} {own : String} {props : List NamedSchema}
    (lists : Lists c v id property visited model.derived tree visited')
    (here : c.graph.model? id = some model) (discriminator : model.discriminator = some property)
    (level : IsLevel own props (tree.filterMap Listing.node?))
    (any : own = property ∨ tree.filterMap Listing.node? ≠ []) :
    MakesLevel c id tree property props (tree.filterMap Listing.node?) := by
  have same : own = property := any.elim (fun same => same) fun any => by
    obtain ⟨node, member⟩ := List.exists_mem_of_ne_nil _ any
    exact (level.apart node member).symm.trans (lists.apart node member)
  subst same
  exact ⟨level, by simp [discriminator?, here, discriminator], rfl, model, here, lists.inOrder⟩

/-- On every level of what is stored for a model with a discriminator, on its own and on that of
each variant that has variants, one property tells the variants apart: it is there once, required,
and lists their values if it is a text. The models that give the variants of a level stand in the
order in which they are listed. In the whole tree no model gives two variants, and the host gives
none. -/
theorem levels_are_well_formed (c : Converter) (calls : List Call) (reports : Diagnostics)
    {trees : List (Option Tree)} {g : Gathered}
    (run : Yields (c.answers calls) ⟨{}, reports⟩ trees g) {slot : Slot} {r : ClassRecord}
    (known : g.classes.record? slot = some r) {model : ModelType}
    (here : c.graph.model? r.type = some model) {property : String}
    (discriminator : model.discriminator = some property) :
    ∃ o tree, r.body = some (.ofKind (.object o)) ∧
      Flattens c r.visibility r.type model property tree o ∧
      MakesLevel c r.type tree property o.props o.variants ∧
      (branchesOf tree).map (·.node) = variantNodes o.variants ∧
      (∀ b ∈ branchesOf tree, b.node.variants ≠ [] → ∃ own, own ≠ b.node.property ∧
        MakesLevel c b.id b.inner own b.node.props b.node.variants) ∧
      (r.type :: (branchesOf tree).map (·.id)).Nodup := by
  obtain ⟨n, g₁, object, g₂, label, format, built, stored⟩ := object_of_answers run known
  obtain ⟨tree, flattens⟩ := flattens_of_objectBy here discriminator built
  have types := c.typesWithin_gives (c.modelWithin_gives n) (c.graph.types.size + 2)
  obtain ⟨level, levelled⟩ :=
    (c.objectBy_levelled types here discriminator r.visibility).known _ _ _ built
  obtain ⟨visited, lists⟩ := flattens.lists
  have nodes : (branchesOf tree).map (·.node) = variantNodes object.variants := by
    rw [flattens.variants, ← lists.members_eq, ← map_branchesOf, List.map_map]
    rfl
  refine ⟨_, tree, stored, ⟨flattens.lists, flattens.variants, flattens.props⟩, ?_, nodes, ?_, ?_⟩
  · rw [flattens.variants] at level ⊢
    exact lists.makesLevel here discriminator level (.inl rfl)
  · intro b member any
    obtain ⟨model, own, _, _, its, found, below, inner⟩ := lists.branch member any
    obtain ⟨discriminator, differ⟩ := Option.filter_eq_some_iff.mp found
    obtain ⟨own', level⟩ := levelled b.node (nodes ▸ List.mem_map_of_mem member) any
    refine ⟨own, by simpa using differ, ?_⟩
    rw [below] at level any ⊢
    exact inner.makesLevel its discriminator level (.inr any)
  · have ids : (branchesOf tree).map (·.id) = (membersOf tree).map Prod.fst := by
      rw [← map_branchesOf, List.map_map]
      rfl
    rw [ids]
    obtain ⟨distinct, apart⟩ := lists.members_apart
    exact List.nodup_cons.mpr ⟨fun again => (apart _ again).1 List.mem_cons_self, distinct⟩

/-- Vehicles of a kind. Cars are told apart by what drives them, and bikes are not. -/
def vehicles : Converter where
  target := "Vehicle"
  graph := {
    version := "1"
    types := .ofEntries [
      ("Vehicle", .model { discriminator := some "kind", derived := ["Car", "Bike", "Car"] }),
      ("Car", .model {
        base := some "Vehicle"
        discriminator := some "drive"
        derived := ["Diesel", "Electric"]
        properties := .ofEntries [("kind", { type := .literal (.string "car") })] }),
      ("Bike", .model {
        base := some "Vehicle"
        properties := .ofEntries [("kind", { type := .literal (.string "bike") })] }),
      ("Diesel", .model {
        base := some "Car"
        properties := .ofEntries [("drive", { type := .literal (.string "diesel") })] }),
      ("Electric", .model {
        base := some "Car"
        properties := .ofEntries [("drive", { type := .literal (.string "electric") })] })] }

def vehiclesCalls : List Call := [.type (.named "Vehicle") { visibility := .read } []]

/-- Cars are a level of vehicles: what drives a car is one of two values. -/
theorem vehicles_cars_level : ∃ trees g r o, ∃ car : Variant,
    Yields (vehicles.answers vehiclesCalls) ⟨{}, []⟩ trees g ∧ g.classes.record? 0 = some r ∧
    r.body = some (.ofKind (.object o)) ∧ IsLevel "kind" o.props o.variants ∧
    o.variants.map (·.value) = ["car", "bike"] ∧ car ∈ variantNodes o.variants ∧
    car.variants.map (·.value) = ["diesel", "electric"] ∧
    ∃ own, IsLevel own car.props car.variants := by
  obtain ⟨trees, g, r, o, car, run, known, here, stored, values, member, drives⟩ :
      ∃ trees g r o, ∃ car : Variant, Yields (vehicles.answers vehiclesCalls) ⟨{}, []⟩ trees g ∧
        g.classes.record? 0 = some r ∧ r.type = ⟨0⟩ ∧ r.body = some (.ofKind (.object o)) ∧
        o.variants.map (·.value) = ["car", "bike"] ∧ car ∈ variantNodes o.variants ∧
        car.variants.map (·.value) = ["diesel", "electric"] :=
    ⟨_, _, _, _, _, rfl, rfl, rfl, rfl, rfl, List.mem_cons_self, rfl⟩
  obtain ⟨vehicle, declared, discriminator⟩ : ∃ vehicle,
      vehicles.graph.model? r.type = some vehicle ∧ vehicle.discriminator = some "kind" := by
    rw [here]
    exact ⟨_, rfl, rfl⟩
  obtain ⟨o', tree, stored', -, level, nodes, nested, -⟩ :=
    levels_are_well_formed vehicles vehiclesCalls [] run known declared discriminator
  obtain rfl : o = o' := by simpa [Schema.ofKind] using stored.symm.trans stored'
  obtain ⟨b, inside, rfl⟩ := List.mem_map.mp (nodes ▸ member)
  obtain ⟨own, -, below⟩ := nested b inside (by rintro leaf; simp [leaf] at drives)
  exact ⟨trees, g, r, o, b.node, run, known, stored, level.toIsLevel, values, member, drives, own,
    below.toIsLevel⟩

end Converter
end WireSchema
