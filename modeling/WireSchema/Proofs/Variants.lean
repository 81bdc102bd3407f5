import WireSchema.Proofs.Flattening

/-! Which derived models get a variant. A model is looked at once in a whole tree, for the one that
lists it first, depth first. It is a variant if it is pinned for that one. -/
namespace WireSchema

open ConvertM ClassTable Converter TypeGraph

namespace TypeGraph

variable {graph : TypeGraph} {id other : TypeId} {model : ModelType} {name : String}
  {names : List String} {own property : String}

def discriminator? (graph : TypeGraph) (id : TypeId) : Option String :=
  (graph.model? id).bind (·.discriminator)

def variantValue? (graph : TypeGraph) (model : ModelType) (property : String) : Option String :=
  if model.template then none else graph.pinnedValue? model property

def IsNamed (graph : TypeGraph) (names : List String) (id : TypeId) : Prop :=
  ∃ name ∈ names, ∃ model, graph.modelNamed name = .ok (id, model)

/-- A variant that has a discriminator of its own lists a model. -/
def VariantLists (graph : TypeGraph) (lister : TypeId) (node : Variant) (id : TypeId) : Prop :=
  ∃ model own, graph.model? lister = some model ∧ model.discriminator = some own ∧
    own ≠ node.property ∧ graph.IsNamed model.derived id

theorem discriminator?_of_own (here : graph.model? id = some model)
    (found : model.discriminator.filter (· ≠ property) = some own) :
    graph.discriminator? id = some own := by
  obtain ⟨discriminator, -⟩ := Option.filter_eq_some_iff.mp found
  simp [discriminator?, here, discriminator]

theorem isNamed_cons (named : graph.modelNamed name = .ok (id, model)) :
    graph.IsNamed (name :: names) other ↔ other = id ∨ graph.IsNamed names other := by
  constructor
  · rintro ⟨name', member, model', found⟩
    rcases List.mem_cons.mp member with rfl | later
    · exact .inl (Prod.mk.inj (Except.ok.inj (found.symm.trans named))).1
    · exact .inr ⟨name', later, model', found⟩
  · rintro (rfl | ⟨name', later, found⟩)
    · exact ⟨name, List.mem_cons_self, model, named⟩
    · exact ⟨name', List.mem_cons_of_mem _ later, found⟩

end TypeGraph

section Trees

variable {host id other lister : TypeId} {node : Variant} {inner tree : List Listing}

/-- The variants that a model gives. -/
def variantsOf (id : TypeId) (tree : List Listing) : List Variant :=
  ((membersOf tree).filter (·.1 = id)).map Prod.snd

/-- The first to list a model. -/
def firstLister? (host : TypeId) (tree : List Listing) (id : TypeId) : Option TypeId :=
  ((looksBelow host tree).find? (·.2 = id)).map Prod.fst

@[simp] theorem looksBelow_passed :
    looksBelow host (.passed id :: tree) = (host, id) :: looksBelow host tree := rfl

@[simp] theorem looksBelow_variant : looksBelow host (.variant id node inner :: tree) =
    (host, id) :: (looksBelow id inner ++ looksBelow host tree) := rfl

@[simp] theorem membersOf_passed : membersOf (.passed id :: tree) = membersOf tree := rfl

@[simp] theorem membersOf_variant : membersOf (.variant id node inner :: tree) =
    (id, node) :: (membersOf inner ++ membersOf tree) := rfl

/-- Of the members of a tree one is the first variant, or it is below that or behind it. -/
theorem exists_member_variant {p : Variant → Prop} :
    (∃ n, (id, n) ∈ membersOf (.variant other node inner :: tree) ∧ p n) ↔
      id = other ∧ p node ∨ (∃ n, (id, n) ∈ membersOf inner ∧ p n) ∨
        ∃ n, (id, n) ∈ membersOf tree ∧ p n := by
  simp only [membersOf_variant, List.mem_cons, List.mem_append, Prod.mk.injEq, or_and_right,
    exists_or, and_assoc]
  simp

@[simp] theorem variantsOf_passed :
    variantsOf id (.passed other :: tree) = variantsOf id tree := rfl

theorem variantsOf_variant : variantsOf id (.variant other node inner :: tree) =
    (if other = id then [node] else []) ++ variantsOf id inner ++ variantsOf id tree := by
  unfold variantsOf
  rw [membersOf_variant, List.filter_cons, List.filter_append]
  split <;> simp_all

theorem firstLister?_passed : firstLister? host (.passed other :: tree) id =
    if other = id then some host else firstLister? host tree id := by
  unfold firstLister?
  rw [looksBelow_passed, List.find?_cons]
  split <;> simp_all

theorem firstLister?_variant : firstLister? host (.variant other node inner :: tree) id =
    if other = id then some host
    else (firstLister? other inner id).or (firstLister? host tree id) := by
  unfold firstLister?
  rw [looksBelow_variant, List.find?_cons, List.find?_append]
  split <;> simp_all [Option.map_or]

theorem firstLister?_eq_none_iff :
    firstLister? host tree id = none ↔ id ∉ (looksBelow host tree).map Prod.snd := by
  simp [firstLister?]
  grind

theorem mem_looks_of_firstLister? (first : firstLister? host tree id = some lister) :
    (lister, id) ∈ looksBelow host tree := by
  obtain ⟨⟨_, other⟩, found, rfl⟩ := Option.map_eq_some_iff.mp first
  obtain rfl : other = id := by simpa using List.find?_some found
  exact List.mem_of_find?_eq_some found

end Trees

theorem Variant.nodes_eq (node : Variant) : node.nodes = node :: variantNodes node.variants := by
  cases node
  rfl

namespace Converter

variable {c : Converter} {v : Visibility} {host id lister : TypeId} {property : String}
  {visited visited' : List TypeId} {names : List String} {tree : List Listing}

/-- The one that lists a model decides about it: it is the one variant that its value for the
discriminator there makes it, or none. -/
def Decides (c : Converter) (lister id : TypeId) (nodes : List Variant) : Prop :=
  ∃ property model, c.graph.discriminator? lister = some property ∧
    c.graph.model? id = some model ∧
    match c.graph.variantValue? model property with
    | none => nodes = []
    | some value => ∃ node, nodes = [node] ∧ node.property = property ∧ node.value = value

/-- A model is listed for variants in a tree: by the host, or by a variant that has a discriminator
of its own. -/
def IsListed (c : Converter) (host : TypeId) (names : List String) (tree : List Listing)
    (lister id : TypeId) : Prop :=
  lister = host ∧ c.graph.IsNamed names id ∨
    ∃ node, (lister, node) ∈ membersOf tree ∧ c.graph.VariantLists lister node id

theorem Lists.mem_visited (lists : Lists c v host property visited names tree visited') :
    id ∈ visited' ↔ id ∈ visited ∨ id ∈ (looksBelow host tree).map Prod.snd := by
  induction lists with
  | done => simp [looksBelow]
  | passed _ _ _ rest =>
    rw [rest, looksBelow_passed, List.map_cons, List.mem_cons, List.mem_insert_iff, or_assoc,
      or_left_comm]
  | leaf _ _ _ _ _ _ rest =>
    rw [rest, looksBelow_variant, List.map_cons, List.mem_cons, List.mem_cons, or_assoc,
      or_left_comm]
    rfl
  | fork _ _ _ _ _ _ _ inner rest =>
    rw [rest, inner, looksBelow_variant, List.map_cons, List.mem_cons, List.mem_cons,
      List.map_append, List.mem_append, or_assoc, or_assoc, or_left_comm]

/-- A model that was looked at before gives no variant. -/
theorem Lists.variantsOf_eq_nil (lists : Lists c v host property visited names tree visited')
    (old : id ∈ visited) : variantsOf id tree = [] := by
  induction lists with
  | done => rfl
  | passed _ _ _ rest =>
    rw [variantsOf_passed, rest (List.mem_insert_of_mem old)]
  | @leaf _ _ _ _ other _ _ _ _ _ _ new _ _ _ _ rest =>
    have differ : other ≠ id := fun same => new (same ▸ old)
    rw [variantsOf_variant, if_neg differ, rest (List.mem_cons_of_mem _ old)]
    rfl
  | @fork _ _ _ _ other _ _ _ _ _ _ _ _ _ new _ _ _ lists _ inner rest =>
    have differ : other ≠ id := fun same => new (same ▸ old)
    rw [variantsOf_variant, if_neg differ, inner (List.mem_cons_of_mem _ old),
      rest (lists.mem_visited.mpr (.inl (List.mem_cons_of_mem _ old)))]
    rfl

theorem IsVariant.decides {model : ModelType} {node : Variant}
    (isVariant : IsVariant c v host property id model node)
    (told : c.graph.discriminator? host = some property) (here : c.graph.model? id = some model) :
    Decides c host id [node] := by
  refine ⟨property, model, told, here, ?_⟩
  simp [variantValue?, isVariant.concrete, isVariant.pinned, isVariant.apart]

/-- The first to list a model that is new decides about it. -/
theorem Lists.decided (lists : Lists c v host property visited names tree visited')
    (told : c.graph.discriminator? host = some property) (new : id ∉ visited) :
    match firstLister? host tree id with
    | none => variantsOf id tree = []
    | some lister => Decides c lister id (variantsOf id tree) := by
  induction lists with
  | done => rfl
  | @passed _ _ _ _ other model _ tree _ named reason lists rest =>
    rw [firstLister?_passed, variantsOf_passed]
    by_cases same : other = id
    · subst same
      rw [if_pos rfl, lists.variantsOf_eq_nil List.mem_insert_self]
      refine ⟨_, model, told, modelNamed_ok named, ?_⟩
      rcases reason.resolve_left new with template | unpinned
      · simp [variantValue?, template]
      · simp [variantValue?, unpinned]
    · rw [if_neg same]
      exact rest told (by simp [new, Ne.symm same])
  | @leaf _ _ _ _ other model node _ tree _ named _ isVariant _ _ lists rest =>
    rw [firstLister?_variant, variantsOf_variant]
    by_cases same : other = id
    · subst same
      rw [if_pos rfl, if_pos rfl, lists.variantsOf_eq_nil List.mem_cons_self]
      exact isVariant.decides told (modelNamed_ok named)
    · rw [if_neg same, if_neg same]
      exact rest told (by simp [new, Ne.symm same])
  | @fork _ _ _ _ other model node own below between _ tree _ named _ isVariant found _ lists
      lists' inner rest =>
    rw [firstLister?_variant, variantsOf_variant]
    by_cases same : other = id
    · subst same
      rw [if_pos rfl, if_pos rfl, lists.variantsOf_eq_nil List.mem_cons_self,
        lists'.variantsOf_eq_nil (lists.mem_visited.mpr (.inl List.mem_cons_self))]
      exact isVariant.decides told (modelNamed_ok named)
    rw [if_neg same, if_neg same, List.nil_append]
    have decided := inner (discriminator?_of_own (modelNamed_ok named) found)
      (by simp [new, Ne.symm same])
    cases first : firstLister? other below id with
    | none =>
      rw [first] at decided
      simp only at decided
      rw [decided, Option.none_or, List.nil_append]
      refine rest told fun old => ?_
      rcases lists.mem_visited.mp old with old | looked
      · simp [new, Ne.symm same] at old
      · exact firstLister?_eq_none_iff.mp first looked
    | some lister =>
      -- The models below were looked at before the rest is.
      have looked := List.mem_map_of_mem (f := Prod.snd) (mem_looks_of_firstLister? first)
      rw [first] at decided
      rw [lists'.variantsOf_eq_nil (lists.mem_visited.mpr (.inr looked)), List.append_nil]
      exact decided

theorem Lists.mem_looks (lists : Lists c v host property visited names tree visited') :
    (lister, id) ∈ looksBelow host tree ↔ c.IsListed host names tree lister id := by
  unfold IsListed
  induction lists with
  | done => simp [looksBelow, membersOf, IsNamed]
  | passed named _ _ rest =>
    rw [looksBelow_passed, List.mem_cons, rest, isNamed_cons named, membersOf_passed, and_or_left,
      or_assoc, Prod.mk.injEq]
  | @leaf _ _ _ _ other _ node _ _ _ named _ isVariant alone _ _ rest =>
    have nothing : ¬ c.graph.VariantLists other node id := by
      rintro ⟨model, own, here, discriminator, differ, -⟩
      obtain rfl := Option.some.inj (here.symm.trans (modelNamed_ok named))
      simp [Option.filter_eq_none_iff, discriminator, ← isVariant.apart, differ] at alone
    rw [looksBelow_variant, List.mem_cons, List.mem_append, rest, isNamed_cons named,
      exists_member_variant, Prod.mk.injEq]
    simp only [looksBelow, membersOf, List.not_mem_nil, false_and, exists_false, false_or]
    grind
  | @fork _ _ _ _ other model node _ _ _ _ _ _ named _ isVariant found _ _ _ inner rest =>
    have own : c.graph.VariantLists other node id ↔ c.graph.IsNamed model.derived id := by
      obtain ⟨discriminator, differ⟩ := Option.filter_eq_some_iff.mp found
      constructor
      · rintro ⟨model', own, here, -, -, named'⟩
        obtain rfl := Option.some.inj (here.symm.trans (modelNamed_ok named))
        exact named'
      · intro named'
        refine ⟨model, _, modelNamed_ok named, discriminator, ?_, named'⟩
        rw [isVariant.apart]
        simpa using differ
    rw [looksBelow_variant, List.mem_cons, List.mem_append, rest, inner, isNamed_cons named,
      exists_member_variant, Prod.mk.injEq]
    grind

theorem Lists.members_eq (lists : Lists c v host property visited names tree visited') :
    (membersOf tree).map Prod.snd = variantNodes (tree.filterMap Listing.node?) := by
  induction lists with
  | done => rfl
  | passed _ _ _ rest => exact rest
  | leaf _ _ _ _ alone _ rest =>
    rw [membersOf_variant, List.map_cons, List.map_append, rest]
    simp [Listing.node?, variantNodes, Variant.nodes_eq, alone, membersOf]
  | fork _ _ _ _ below _ _ inner rest =>
    rw [membersOf_variant, List.map_cons, List.map_append, inner, rest, ← below]
    simp [Listing.node?, variantNodes, Variant.nodes_eq]

variable {calls : List Call} {reports : Diagnostics} {trees : List (Option Tree)} {g : Gathered}
  {model : ModelType}

/-- Each model that is listed for variants, other than the host, is a variant if it is pinned for
the first one that lists it, depth first. The others that list it make nothing of it. -/
theorem first_lister_decides (c : Converter) (calls : List Call) (reports : Diagnostics)
    {trees : List (Option Tree)} {g : Gathered}
    (run : Yields (c.answers calls) ⟨{}, reports⟩ trees g) {slot : Slot} {r : ClassRecord}
    (known : g.classes.record? slot = some r) {model : ModelType}
    (here : c.graph.model? r.type = some model) {property : String}
    (discriminator : model.discriminator = some property) :
    ∃ o tree, r.body = some (.ofKind (.object o)) ∧
      Flattens c r.visibility r.type model property tree o ∧
      (membersOf tree).map Prod.snd = variantNodes o.variants ∧
      (∀ lister id, (lister, id) ∈ looksBelow r.type tree ↔
        c.IsListed r.type model.derived tree lister id) ∧
      variantsOf r.type tree = [] ∧
      ∀ lister id, c.IsListed r.type model.derived tree lister id → id ≠ r.type →
        ∃ first, firstLister? r.type tree id = some first ∧
          Decides c first id (variantsOf id tree) := by
  obtain ⟨o, tree, stored, flattens⟩ := flattens_of_answers run known here discriminator
  obtain ⟨visited, lists⟩ := flattens.lists
  refine ⟨o, tree, stored, flattens, flattens.variants ▸ lists.members_eq,
    fun _ _ => lists.mem_looks, lists.variantsOf_eq_nil List.mem_cons_self,
    fun lister id listed other => ?_⟩
  have told : c.graph.discriminator? r.type = some property := by
    simp [discriminator?, here, discriminator]
  have new : id ∉ [r.type] := by simpa using other
  have decided := lists.decided told new
  cases first : firstLister? r.type tree id with
  | none =>
    have looked := List.mem_map_of_mem (f := Prod.snd) (lists.mem_looks.mpr listed)
    exact absurd looked (firstLister?_eq_none_iff.mp first)
  | some first' =>
    rw [first] at decided
    exact ⟨first', rfl, decided⟩

/-- Shapes of a kind. A polygon tells those with corners apart, but a square is only told by its
kind. -/
def shapes : Converter where
  target := "Shape"
  graph := {
    version := "1"
    types := .ofEntries [
      ("Shape", .model { discriminator := some "kind", derived := ["Polygon", "Square"] }),
      ("Polygon", .model {
        base := some "Shape"
        discriminator := some "corners"
        derived := ["Square"]
        properties := .ofEntries [
          ("kind", { type := .literal (.string "polygon") }),
          ("corners", { type := .named "string" })] }),
      ("Square", .model {
        base := some "Polygon"
        properties := .ofEntries [("kind", { type := .literal (.string "square") })] })] }

def shapesCalls : List Call := [.type (.named "Shape") { visibility := .read } []]

/-- About the polygon the first decides that lists it. -/
theorem shapes_polygon_decided : ∃ trees g r,
    Yields (shapes.answers shapesCalls) ⟨{}, []⟩ trees g ∧ g.classes.record? 0 = some r ∧
    ∃ o tree first, r.body = some (.ofKind (.object o)) ∧
      firstLister? r.type tree ⟨1⟩ = some first ∧
      Decides shapes first ⟨1⟩ (variantsOf ⟨1⟩ tree) := by
  obtain ⟨trees, g, r, run, known, here⟩ : ∃ trees g r,
      Yields (shapes.answers shapesCalls) ⟨{}, []⟩ trees g ∧ g.classes.record? 0 = some r ∧
      r.type = ⟨0⟩ := ⟨_, _, _, rfl, rfl, rfl⟩
  obtain ⟨shape, declared, discriminator, polygon⟩ : ∃ shape,
      shapes.graph.model? r.type = some shape ∧ shape.discriminator = some "kind" ∧
      shapes.graph.IsNamed shape.derived ⟨1⟩ := by
    rw [here]
    exact ⟨_, rfl, rfl, "Polygon", by simp, _, rfl⟩
  obtain ⟨o, tree, stored, -, -, -, -, decided⟩ :=
    first_lister_decides shapes shapesCalls [] run known declared discriminator
  obtain ⟨first, firstly, decides⟩ :=
    decided r.type ⟨1⟩ (.inl ⟨rfl, polygon⟩) (by simp [here])
  exact ⟨trees, g, r, run, known, o, tree, first, stored, firstly, decides⟩

/-- A square is listed for the shapes and pinned to its kind, but no shape is made of it. -/
theorem shapes_square_lost : ∃ trees g r o shape square,
    Yields (shapes.answers shapesCalls) ⟨{}, []⟩ trees g ∧ g.classes.record? 0 = some r ∧
    r.body = some (.ofKind (.object o)) ∧ shapes.graph.model? r.type = some shape ∧
    shape.discriminator = some "kind" ∧ "Square" ∈ shape.derived ∧
    shapes.graph.modelNamed "Square" = .ok (⟨2⟩, square) ∧ square.template = false ∧
    shapes.graph.pinnedValue? square "kind" = some "square" ∧
    shapes.graph.pinnedValue? square "corners" = none ∧
    ∀ node ∈ variantNodes o.variants, node.value ≠ "square" := by
  refine ⟨_, _, _, _, _, _, rfl, rfl, rfl, rfl, rfl, by simp, rfl, rfl, rfl, rfl, ?_⟩
  decide

end Converter
end WireSchema
