import WireSchema.Proofs.Variants

/-! The properties of a variant, against those of the model that it is. A variant has what is
declared below its host and leaves the rest to the host, which knows nothing of its variants. -/
namespace WireSchema

open ConvertM ClassTable Converter TypeGraph

namespace TypeGraph

variable {graph : TypeGraph} {v : Visibility} {host id owner : TypeId} {decl : Property}
  {chain own : List TypeId} {name : String} {model : ModelType}

/-- A model has a base, or is it. -/
def Inherits (graph : TypeGraph) (base id : TypeId) : Prop :=
  ∃ chain, graph.ancestry id = .ok chain ∧ base ∈ chain

/-- The last declaration of a name from below the host hides it. -/
def HiddenBelow (graph : TypeGraph) (v : Visibility) (host id : TypeId) (chain : List TypeId)
    (name : String) : Prop :=
  ∃ owner decl, graph.latest? name (chainBelow chain host id) = some (owner, decl) ∧
    decl.isVisible v = false

theorem chain_split (member : host ∈ chain) (id : TypeId) :
    ∃ above, chain = above ++ host :: chainBelow chain host id := by
  obtain ⟨above, below, rfl, new⟩ := List.eq_append_cons_of_mem member
  refine ⟨above, ?_⟩
  have others : ∀ x ∈ above, decide (x ≠ host) = true := by
    intro x inside
    simpa using fun same : x = host => new (same ▸ inside)
  rw [chainBelow, List.dropWhile_append_of_pos others]
  simp

theorem chainBelow_suffix (walk : graph.ancestry id = .ok chain) (host : TypeId) :
    chainBelow chain host id <:+ chain := by
  by_cases member : host ∈ chain
  · obtain ⟨above, split⟩ := chain_split member id
    exact ⟨above ++ [host], by simpa using split.symm⟩
  · obtain ⟨bases, -, rfl⟩ := ancestry_ok walk
    have others : ∀ x ∈ (id :: bases).reverse, decide (x ≠ host) = true := by
      intro x inside
      simpa using fun same : x = host => member (same ▸ inside)
    have all : ((id :: bases).reverse ++ []).dropWhile (· ≠ host) = [] :=
      List.dropWhile_append_of_pos others
    rw [List.append_nil] at all
    simp only [chainBelow, all]
    exact ⟨bases.reverse, by simp⟩

theorem latest?_below {last : TypeId × Property} (walk : graph.ancestry id = .ok chain)
    (found : graph.latest? name (chainBelow chain host id) = some last) :
    graph.latest? name chain = some last := by
  obtain ⟨above, split⟩ := chainBelow_suffix walk host
  rw [← split, latest?_append, found, Option.some_or]

/-- What is not declared below a host is for the model what it is for the host. -/
theorem latest?_above (here : graph.model? id = some model) (walk : graph.ancestry id = .ok chain)
    (member : host ∈ chain) (walk' : graph.ancestry host = .ok own)
    (undeclared : graph.latest? name (chainBelow chain host id) = none) :
    graph.latest? name chain = graph.latest? name own := by
  obtain ⟨above, split⟩ := chain_split member id
  rw [split] at walk ⊢
  exact latest?_of_base here walk walk' undeclared

end TypeGraph

namespace Converter

variable {c : Converter} {v : Visibility} {host id owner : TypeId} {property name : String}
  {visited visited' own : List TypeId} {names : List String} {tree : List Listing}
  {node : Variant} {model : ModelType} {decl : Property}

/-- A way down a tree, from a host to a variant that inherits from it, and so on from there. -/
inductive Path (c : Converter) : TypeId → List Listing → List (TypeId × Variant) → Prop
  | last {host tree id node inner} : .variant id node inner ∈ tree → c.graph.Inherits host id →
      Path c host tree [(id, node)]
  | step {host tree id node inner path} : .variant id node inner ∈ tree →
      c.graph.Inherits host id → Path c id inner path → Path c host tree ((id, node) :: path)

def Known (c : Converter) (v : Visibility) (chain : List TypeId) (names : List String) : Prop :=
  ∀ name owner decl, c.graph.latest? name chain = some (owner, decl) → decl.isVisible v →
    c.HasForm v decl → name ∈ names

/-- A variant has what its host does not know of it. -/
theorem IsVariant.known (isVariant : IsVariant c v host property id model node)
    (here : c.graph.model? id = some model) (inherits : c.graph.Inherits host id)
    (walk : c.graph.ancestry host = .ok own) (known : c.Known v own names)
    (told : property ∈ names) : ∃ chain, c.graph.ancestry id = .ok chain ∧
      c.Known v chain (names ++ node.props.map (·.name)) := by
  obtain ⟨chain, walk', shown⟩ := isVariant.props
  obtain ⟨_, again, member⟩ := inherits
  obtain rfl := Except.ok.inj (walk'.symm.trans again)
  refine ⟨chain, walk', fun name owner decl last visible form => ?_⟩
  rw [List.mem_append]
  cases below : c.graph.latest? name (chainBelow chain host id) with
  | none =>
    rw [latest?_above here walk' member walk below] at last
    exact .inl (known name owner decl last visible form)
  | some found =>
    obtain rfl := Option.some.inj ((latest?_below walk' below).symm.trans last)
    by_cases same : name = property
    · exact .inl (same ▸ told)
    · let e := effective (c.graph.discriminatorNames chain) v owner name decl
      refine .inr (shown.complete e ?_ form)
      rw [payloadBelow, List.mem_filter, mem_collect]
      exact ⟨⟨owner, decl, below, visible, rfl⟩, by simpa [e, effective] using same⟩

/-- A variant in a tree is that of a model, which lists those below it. -/
theorem Lists.variant (lists : Lists c v host property visited names tree visited')
    {inner : List Listing} (member : .variant id node inner ∈ tree) : ∃ model,
      c.graph.model? id = some model ∧ IsVariant c v host property id model node ∧
      (inner = [] ∨ ∃ own visited visited', own ∈ node.props.map (·.name) ∧
        Lists c v id own visited model.derived inner visited') := by
  induction lists with
  | done => cases member
  | passed _ _ _ rest =>
    rcases List.mem_cons.mp member with here | later
    · cases here
    · exact rest later
  | leaf named _ isVariant _ _ _ rest =>
    rcases List.mem_cons.mp member with here | later
    · cases here
      exact ⟨_, modelNamed_ok named, isVariant, .inl rfl⟩
    · exact rest later
  | fork named _ isVariant found _ lists _ _ rest =>
    rcases List.mem_cons.mp member with here | later
    · cases here
      obtain ⟨_, _, shown⟩ := isVariant.props
      exact ⟨_, modelNamed_ok named, isVariant, .inr ⟨_, _, _, shown.told _ found, lists⟩⟩
    · exact rest later

/-- Along a path what is known of the host grows to all that is known of the last model. -/
theorem Path.known {path : List (TypeId × Variant)} (way : Path c host tree path)
    (lists : Lists c v host property visited names tree visited') {shown : List String}
    (walk : c.graph.ancestry host = .ok own) (known : c.Known v own shown)
    (told : property ∈ shown) : ∀ last ∈ path.getLast?, ∃ chain,
      c.graph.ancestry last.1 = .ok chain ∧
      c.Known v chain (shown ++ path.flatMap fun step => step.2.props.map (·.name)) := by
  induction way generalizing property visited names visited' own shown with
  | last member inherits =>
    obtain ⟨model, here, isVariant, -⟩ := lists.variant member
    rintro last ⟨⟩
    simpa using isVariant.known here inherits walk known told
  | @step host tree id node inner path member inherits way rest =>
    obtain ⟨model, here, isVariant, rfl | ⟨own', _, _, told', below⟩⟩ := lists.variant member
    · cases way <;> contradiction
    obtain ⟨chain, walk', known'⟩ := isVariant.known here inherits walk known told
    have further := rest below walk' known' (List.mem_append_right _ told')
    have more : path ≠ [] := by cases way <;> simp
    simpa [List.getLast?_cons, List.getLast?_eq_some_getLast more] using further

/-- Flattening loses no property of a variant. Along a path on which each model inherits from the
one before, all properties of the last one that have a form on the wire are there, at the host or at
a variant on the path. -/
theorem variant_properties_are_kept (c : Converter) (calls : List Call) (reports : Diagnostics)
    {trees : List (Option Tree)} {g : Gathered}
    (run : Yields (c.answers calls) ⟨{}, reports⟩ trees g) {slot : Slot} {r : ClassRecord}
    (known : g.classes.record? slot = some r) {model : ModelType}
    (here : c.graph.model? r.type = some model) {property : String}
    (discriminator : model.discriminator = some property) :
    ∃ o tree, r.body = some (.ofKind (.object o)) ∧
      Flattens c r.visibility r.type model property tree o ∧
      ∀ path, Path c r.type tree path → ∀ last ∈ path.getLast?, ∃ payload,
        c.graph.payload last.1 r.visibility = .ok payload ∧
        ∀ e ∈ payload, c.HasForm r.visibility e.decl →
          e.name ∈ o.props.map (·.name) ∨ ∃ step ∈ path, e.name ∈ step.2.props.map (·.name) := by
  obtain ⟨o, tree, stored, flattens⟩ := flattens_of_answers run known here discriminator
  refine ⟨o, tree, stored, flattens, fun path way last ending => ?_⟩
  obtain ⟨visited, lists⟩ := flattens.lists
  obtain ⟨payload, collected, shown⟩ := flattens.props
  obtain ⟨own, walk, rfl⟩ := ancestry_of_payload collected
  have start : c.Known r.visibility own (o.props.map (·.name)) :=
    fun name owner decl last visible form =>
      shown.complete (effective _ _ owner name decl)
        (mem_collect.mpr ⟨owner, decl, last, visible, rfl⟩) form
  obtain ⟨chain, walk', all⟩ := way.known lists walk start (shown.told _ rfl) last ending
  refine ⟨_, payload_of_ancestry walk' _, fun e member form => ?_⟩
  obtain ⟨owner, decl, latest, visible, same⟩ := mem_collect.mp member
  rw [same] at form
  have there := all e.name owner decl latest visible form
  rw [List.mem_append, List.mem_flatMap] at there
  exact there

def pet : ModelType where
  discriminator := some "kind"
  derived := ["Cat"]
  properties := .ofEntries [("name", { type := .named "string" })]

/-- A cat has a name when it is read, but it is created without one. -/
def cat : ModelType where
  base := some "Pet"
  properties := .ofEntries [
    ("kind", { type := .literal (.string "cat") }),
    ("name", { type := .named "string", visibility := some [.read] }),
    ("age", { type := .named "int32" })]

def pets : Converter where
  target := "Pet"
  graph := { version := "1", types := .ofEntries [("Pet", .model pet), ("Cat", .model cat)] }

def petsCalls (v : Visibility) : List Call := [.type (.named "Pet") { visibility := v } []]

theorem pets_tree {tree : List Listing} {o : ObjectSchema}
    (flattens : Flattens pets v ⟨0⟩ pet "kind" tree o) : ∃ node, tree = [.variant ⟨1⟩ node []] := by
  have named : pets.graph.modelNamed "Cat" = .ok (⟨1⟩, cat) := rfl
  obtain ⟨visited, lists⟩ := flattens.lists
  cases lists with
  | passed named' reason _ =>
    cases named.symm.trans named'
    exact absurd reason (by decide)
  | leaf named' _ _ _ _ rest =>
    cases named.symm.trans named'
    cases rest
    exact ⟨_, rfl⟩
  | fork named' _ _ found _ _ _ =>
    cases named.symm.trans named'
    cases found

theorem pets_inherit : pets.graph.Inherits ⟨0⟩ ⟨1⟩ := ⟨_, rfl, by decide⟩

theorem cat_properties_kept : ∃ trees g r o payload, ∃ node : Variant,
    Yields (pets.answers (petsCalls .read)) ⟨{}, []⟩ trees g ∧ g.classes.record? 0 = some r ∧
    r.body = some (.ofKind (.object o)) ∧ pets.graph.payload ⟨1⟩ .read = .ok payload ∧
    ∀ e ∈ payload, pets.HasForm .read e.decl →
      e.name ∈ o.props.map (·.name) ∨ e.name ∈ node.props.map (·.name) := by
  obtain ⟨trees, g, r, run, known, here, v⟩ : ∃ trees g r,
      Yields (pets.answers (petsCalls .read)) ⟨{}, []⟩ trees g ∧ g.classes.record? 0 = some r ∧
      r.type = ⟨0⟩ ∧ r.visibility = .read := ⟨_, _, _, rfl, rfl, rfl, rfl⟩
  have declared : pets.graph.model? r.type = some pet := by
    rw [here]
    rfl
  obtain ⟨o, tree, stored, flattens, kept⟩ :=
    variant_properties_are_kept pets (petsCalls .read) [] run known declared rfl
  rw [here, v] at flattens
  obtain ⟨node, rfl⟩ := pets_tree flattens
  have way : Path pets r.type [.variant ⟨1⟩ node []] [(⟨1⟩, node)] :=
    .last List.mem_cons_self (here ▸ pets_inherit)
  obtain ⟨payload, collected, all⟩ := kept _ way (⟨1⟩, node) rfl
  exact ⟨trees, g, r, o, payload, node, run, known, stored, v ▸ collected,
    fun e member form => by simpa using all e member (v ▸ form)⟩

theorem Lists.member (lists : Lists c v host property visited names tree visited')
    (member : (id, node) ∈ membersOf tree) : ∃ host property model,
      c.graph.model? id = some model ∧ IsVariant c v host property id model node := by
  induction lists with
  | done => cases member
  | passed _ _ _ rest => exact rest member
  | leaf named _ isVariant _ _ _ rest =>
    rcases List.mem_cons.mp member with here | later
    · cases here
      exact ⟨_, _, _, modelNamed_ok named, isVariant⟩
    · exact rest later
  | fork named _ isVariant _ _ _ _ inner rest =>
    rcases List.mem_cons.mp member with here | later
    · cases here
      exact ⟨_, _, _, modelNamed_ok named, isVariant⟩
    · exact (List.mem_append.mp later).elim inner rest

/-- A variant itself offers what its model has. -/
theorem IsVariant.offered {chain : List TypeId}
    (isVariant : IsVariant c v host property id model node)
    (here : c.graph.model? id = some model) (walk : c.graph.ancestry id = .ok chain)
    (offered : name ∈ node.props.map (·.name)) (other : c.graph.discriminator? id ≠ some name) :
    ∃ owner decl, c.graph.latest? name chain = some (owner, decl) ∧ decl.isVisible v := by
  obtain ⟨_, again, shown⟩ := isVariant.props
  obtain rfl := Except.ok.inj (walk.symm.trans again)
  rcases shown.sound name offered with own | below
  · exact absurd (discriminator?_of_own here own) other
  · obtain ⟨e, member, rfl⟩ := List.mem_map.mp below
    obtain ⟨owner, decl, last, visible, -⟩ := mem_collect.mp (List.mem_filter.mp member).1
    exact ⟨owner, decl, latest?_below walk last, visible⟩

/-- What a host offers a variant has, unless a declaration from below the host hides it. -/
theorem mem_payload_iff_not_hiddenBelow {chain : List TypeId} {discriminators : List String}
    (here : c.graph.model? id = some model) (walk : c.graph.ancestry id = .ok chain)
    (member : host ∈ chain) (walk' : c.graph.ancestry host = .ok own)
    (last : c.graph.latest? name own = some (owner, decl)) (visible : decl.isVisible v) :
    name ∈ (c.graph.collect chain discriminators v).map (·.name) ↔
      ¬ c.graph.HiddenBelow v host id chain name := by
  rw [mem_names_collect]
  cases below : c.graph.latest? name (chainBelow chain host id) with
  | none =>
    rw [latest?_above here walk member walk' below, last]
    refine iff_of_true ⟨owner, decl, rfl, visible⟩ ?_
    simp [HiddenBelow, below]
  | some found =>
    obtain ⟨owner', decl'⟩ := found
    rw [latest?_below walk below]
    simp [HiddenBelow, below, and_assoc]

/-- What is offered for a variant by itself is there for its model, and so is what its host offers,
apart from the properties that tell variants apart, exactly if no declaration from below the host
hides it. -/
theorem offered_unless_hidden_below (c : Converter) (calls : List Call) (reports : Diagnostics)
    {trees : List (Option Tree)} {g : Gathered}
    (run : Yields (c.answers calls) ⟨{}, reports⟩ trees g) {slot : Slot} {r : ClassRecord}
    (known : g.classes.record? slot = some r) {model : ModelType}
    (here : c.graph.model? r.type = some model) {property : String}
    (discriminator : model.discriminator = some property) :
    ∃ o tree, r.body = some (.ofKind (.object o)) ∧
      Flattens c r.visibility r.type model property tree o ∧
      (membersOf tree).map Prod.snd = variantNodes o.variants ∧
      ∀ id node, (id, node) ∈ membersOf tree →
        ∀ chain, c.graph.ancestry id = .ok chain → r.type ∈ chain →
        ∃ payload, c.graph.payload id r.visibility = .ok payload ∧
          (∀ name ∈ node.props.map (·.name), c.graph.discriminator? id ≠ some name →
            name ∈ payload.map (·.name)) ∧
          ∀ name ∈ o.props.map (·.name), name ≠ property →
            (name ∈ payload.map (·.name) ↔
              ¬ c.graph.HiddenBelow r.visibility r.type id chain name) := by
  obtain ⟨o, tree, stored, flattens⟩ := flattens_of_answers run known here discriminator
  obtain ⟨visited, lists⟩ := flattens.lists
  obtain ⟨payload, collected, shown⟩ := flattens.props
  obtain ⟨own, walk, rfl⟩ := ancestry_of_payload collected
  refine ⟨o, tree, stored, flattens, flattens.variants ▸ lists.members_eq,
    fun id node member chain walk' inherits => ?_⟩
  obtain ⟨host, property', heir, there, isVariant⟩ := lists.member member
  refine ⟨_, payload_of_ancestry walk' _, fun name offered other => ?_,
    fun name offered other => ?_⟩
  · exact mem_names_collect.mpr (isVariant.offered there walk' offered other)
  · have apart : some property ≠ some name := fun same => other (Option.some.inj same).symm
    have inside := (shown.sound name offered).resolve_left apart
    obtain ⟨owner, decl, last, visible⟩ := mem_names_collect.mp inside
    exact mem_payload_iff_not_hiddenBelow there walk' inherits walk last visible

/-- What is offered for a cat that is read is its own, unless it is hidden. -/
theorem cat_offered : ∃ trees g r o payload, ∃ node : Variant,
    Yields (pets.answers (petsCalls .read)) ⟨{}, []⟩ trees g ∧ g.classes.record? 0 = some r ∧
    r.body = some (.ofKind (.object o)) ∧ pets.graph.payload ⟨1⟩ .read = .ok payload ∧
    (∀ name ∈ node.props.map (·.name), name ∈ payload.map (·.name)) ∧
    ∀ name ∈ o.props.map (·.name), name ≠ "kind" → (name ∈ payload.map (·.name) ↔
      ¬ pets.graph.HiddenBelow .read ⟨0⟩ ⟨1⟩ [⟨0⟩, ⟨1⟩] name) := by
  obtain ⟨trees, g, r, run, known, here, v⟩ : ∃ trees g r,
      Yields (pets.answers (petsCalls .read)) ⟨{}, []⟩ trees g ∧ g.classes.record? 0 = some r ∧
      r.type = ⟨0⟩ ∧ r.visibility = .read := ⟨_, _, _, rfl, rfl, rfl, rfl⟩
  have declared : pets.graph.model? r.type = some pet := by
    rw [here]
    rfl
  obtain ⟨o, tree, stored, flattens, -, offered⟩ :=
    offered_unless_hidden_below pets (petsCalls .read) [] run known declared rfl
  rw [here, v] at flattens
  obtain ⟨node, rfl⟩ := pets_tree flattens
  rw [here, v] at offered
  have inherits : (⟨0⟩ : TypeId) ∈ [⟨0⟩, (⟨1⟩ : TypeId)] := List.mem_cons_self
  obtain ⟨payload, collected, own, common⟩ :=
    offered ⟨1⟩ node List.mem_cons_self [⟨0⟩, ⟨1⟩] rfl inherits
  exact ⟨trees, g, r, o, payload, node, run, known, stored, collected,
    fun name member => own name member nofun, common⟩

/-- A cat is created without a name, but a name is offered for all pets. -/
theorem cat_name_offered : ∃ trees g r o payload,
    Yields (pets.answers (petsCalls .create)) ⟨{}, []⟩ trees g ∧ g.classes.record? 0 = some r ∧
    r.body = some (.ofKind (.object o)) ∧ o.variants.map (·.value) = ["cat"] ∧
    pets.graph.Inherits r.type ⟨1⟩ ∧ pets.graph.pinnedValue? cat "kind" = some "cat" ∧
    pets.graph.payload ⟨1⟩ r.visibility = .ok payload ∧ "name" ∈ o.props.map (·.name) ∧
    "name" ∉ payload.map (·.name) := by
  refine ⟨_, _, _, _, _, rfl, rfl, rfl, rfl, pets_inherit, rfl, rfl, ?_, ?_⟩
  · decide
  · decide

end Converter
end WireSchema
