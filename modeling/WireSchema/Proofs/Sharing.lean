import WireSchema.Proofs.Closure
import WireSchema.Proofs.Following

/-! Sharing loses nothing. With its references unfolded, a tree of a pass is the tree that comes out
if every model is built again wherever it occurs. -/
namespace WireSchema

open ConvertM ClassTable

def Tree.mapKind (f : SchemaKind → SchemaKind) : Tree → Tree
  | plain s => plain (s.mapKind f)
  | named p => named (p.mapKind f)

namespace Converter

/-- Models built again at every occurrence, `depth` of them inside each other and references to what
comes then. Classes are called what `label` says. -/
def rebuild (c : Converter) (label : TypeId → Visibility → ClassRef) : Nat → ModelStep
  | 0 => fun id v _ => return .ofKind (.reference (label id v))
  | depth + 1 => fun id v site => do
    let object ← c.objectBy (c.typesBy (c.rebuild label depth)) id v
    return c.body (some (label id v)) id site object

section Layers

variable {c : Converter} {table : ClassTable} {f h : SchemaKind → SchemaKind}
  {types types' : TypeStep} {models models' : ModelStep}

/-- Types are converted alike, as far as they can be seen through `f` and `h`. -/
structure TypesFollow (c : Converter) (table : ClassTable) (f h : SchemaKind → SchemaKind)
    (types types' : TypeStep) : Prop where
  left : SchemaKind.Transparent f
  right : SchemaKind.Transparent h
  traces : TypesTrace c types
  follow : ∀ type ctx site, Follows table (Option.map (Schema.mapKind f))
    (Option.map (Schema.mapKind h)) (types type ctx site) (types' type ctx site)

structure ModelsFollow (c : Converter) (table : ClassTable) (f h : SchemaKind → SchemaKind)
    (models models' : ModelStep) : Prop where
  left : SchemaKind.Transparent f
  right : SchemaKind.Transparent h
  traces : ModelsTrace c models
  follow : ∀ id v site, Follows table (Schema.mapKind f) (Schema.mapKind h)
    (models id v site) (models' id v site)

theorem mapKind_flat (hf : SchemaKind.Transparent f) (hh : SchemaKind.Transparent h) {s : Schema}
    (flat : s.kind.Flat) : s.mapKind f = s.mapKind h := by
  rw [Schema.mapKind, Schema.mapKind, hf.flat flat, hh.flat flat]

theorem plain_follows (hf : SchemaKind.Transparent f) (hh : SchemaKind.Transparent h)
    {x : ConvertM (Option Schema)} (plain : Plain x) :
    Follows table (Option.map (Schema.mapKind f)) (Option.map (Schema.mapKind h)) x x := by
  refine .ofReports plain.reports fun g a g' run => ?_
  cases a with
  | none => rfl
  | some s => exact congrArg some (mapKind_flat hf hh (plain.flat g s g' run))

theorem oneOf_follows (below : TypesFollow c table f h types types') (decl : UnionType)
    (variants : List (TypeRef × Resolved)) (ctx : Context) (site : List Constraints) :
    Follows table (Option.map (Schema.mapKind f)) (Option.map (Schema.mapKind h))
      (c.oneOf types decl variants ctx site) (c.oneOf types' decl variants ctx site) := by
  unfold oneOf
  split
  · exact .ofReports (.bind (.report ..) fun _ => .pure _) fun g a g' run => by
      simp only [yields_bind, yields_pure] at run
      obtain ⟨_, _, _, rfl, _⟩ := run
      rfl
  · exact below.follow ..
  · exact plain_follows below.left below.right (c.plain_enumUnion ..)

theorem union_follows (below : TypesFollow c table f h types types') (decl : UnionType)
    (ctx : Context) (site : List Constraints) :
    Follows table (Option.map (Schema.mapKind f)) (Option.map (Schema.mapKind h))
      (c.union types decl ctx site) (c.union types' decl ctx site) := by
  refine Follows.resolve fun variants => (oneOf_follows below ..).map fun s s' alike => ?_
  cases s <;> cases s' <;> simp_all [Schema.mapKind]

theorem array_follows (below : TypesFollow c table f h types types') (decl : ArrayType)
    (ctx : Context) (site : List Constraints) :
    Follows table (Option.map (Schema.mapKind f)) (Option.map (Schema.mapKind h))
      (array types decl ctx site) (array types' decl ctx site) := by
  refine (below.follow ..).map fun item item' alike => ?_
  simp only [Option.map_some, Schema.mapKind, Schema.ofKind, below.left.harvest_array,
    below.right.harvest_array,
    alike]

theorem additional_follows (below : TypesFollow c table f h types types') (model : ModelType)
    (v : Visibility) :
    Follows table (Option.map (Additional.mapKind f)) (Option.map (Additional.mapKind h))
      (c.additional types model v) (c.additional types' model v) := by
  unfold additional
  split
  · exact .pure rfl
  · split
    · exact .pure rfl
    · refine (below.follow ..).map fun item item' alike => ?_
      simp [Additional.mapKind, alike]

theorem record_follows (below : TypesFollow c table f h types types') (model : ModelType)
    (v : Visibility) (site : List Constraints) :
    Follows table (Option.map (Schema.mapKind f)) (Option.map (Schema.mapKind h))
      (c.record types model v site) (c.record types' model v site) := by
  refine (additional_follows below ..).map fun a a' alike => ?_
  have object (f : SchemaKind → SchemaKind) (hf : SchemaKind.Transparent f)
      (a : Option Additional) := hf.harvest_object { additional := a } rfl
        (site ++ [model.constraints]) none
  simp only [Option.map_some, Schema.mapKind, Schema.ofKind, object f below.left,
    object h below.right, ObjectSchema.mapKind, alike, List.map_nil]

theorem linked_follows (below : TypesFollow c table f h types types') (link : PropertyLink)
    (ctx : Context) (site : List Constraints) :
    Follows table (Option.map (Schema.mapKind f)) (Option.map (Schema.mapKind h))
      (c.linked types link ctx site) (c.linked types' link ctx site) := by
  apply Follows.resolve
  intro target
  obtain ⟨_, model⟩ := target
  dsimp only
  split
  · exact .throw
  · exact below.follow ..

theorem declared_follows (known : ModelsFollow c table f h models models')
    (below : TypesFollow c table f h types types') (id : TypeId) (decl : Declaration)
    (ctx : Context) (site : List Constraints) :
    Follows table (Option.map (Schema.mapKind f)) (Option.map (Schema.mapKind h))
      (c.declared models types id decl ctx site) (c.declared models' types' id decl ctx site) := by
  unfold declared
  cases decl with
  | scalar _ =>
    exact Follows.resolve fun chain =>
      .pure (congrArg some (mapKind_flat known.left known.right (chain.flat_schema site)))
  | model model =>
    simp only
    split
    · exact record_follows below ..
    · exact (known.follow ..).map fun s s' alike => congrArg some alike
  | array decl => exact array_follows below ..
  | union decl => exact union_follows below ..
  | enum decl => exact plain_follows below.left below.right (c.plain_enumeration ..)
  | property link => exact linked_follows below ..

theorem typesWithin_follow (known : ModelsFollow c table f h models models') (fuel : Nat) :
    TypesFollow c table f h (c.typesWithin models fuel) (c.typesWithin models' fuel) := by
  refine ⟨known.left, known.right, typesWithin_traces known.traces fuel, ?_⟩
  induction fuel with
  | zero => exact fun _ _ _ => .throw
  | succ fuel ih =>
    intro type ctx site
    refine Follows.resolve fun resolved => ?_
    cases resolved with
    | declared id decl =>
      exact declared_follows known
        ⟨known.left, known.right, typesWithin_traces known.traces fuel, ih⟩ ..
    | builtin builtin =>
      refine .pure (congrArg some (mapKind_flat known.left known.right ?_))
      exact (ScalarChain.ofBuiltin builtin).flat_schema _
    | intrinsic intrinsic => exact plain_follows known.left known.right (c.plain_intrinsic ..)
    | literal value => exact plain_follows known.left known.right (c.plain_literal _)

theorem propertyBy_follows (below : TypesFollow c table f h types types')
    (p : EffectiveProperty) (v : Visibility) :
    Follows table (Option.map (NamedSchema.mapKind f)) (Option.map (NamedSchema.mapKind h))
      (c.propertyBy types p v) (c.propertyBy types' p v) := by
  refine (below.follow ..).bind (fun s => ?_) fun s s' alike => ?_
  · cases s <;> exact .pure _
  · cases s with
    | none =>
      obtain rfl : s' = none := by simpa using alike.symm
      exact .pure rfl
    | some s =>
      obtain ⟨s', rfl, same⟩ := Option.map_eq_some_iff.mp alike.symm
      refine .pure ?_
      simp_all [NamedSchema.mapKind, Schema.mapKind]

theorem properties_follow (below : TypesFollow c table f h types types')
    (ps : List EffectiveProperty) (v : Visibility) :
    Follows table (List.map (NamedSchema.mapKind f)) (List.map (NamedSchema.mapKind h))
      (keep (fun p => c.propertyBy types p v) ps) (keep (fun p => c.propertyBy types' p v) ps) :=
  .keep (fun p => propertyBy_follows below p v) ps

def found (f : SchemaKind → SchemaKind) (state : List Variant × List TypeId) :
    List Variant × List TypeId := (state.1.map (.mapKind f), state.2)

structure VariantsFollow (c : Converter) (table : ClassTable) (f h : SchemaKind → SchemaKind)
    (nested nested' : VariantStep) : Prop where
  traces : VariantsTrace c nested
  follow : ∀ host property v visited, Follows table (found f) (found h)
    (nested host property v visited) (nested' host property v visited)

theorem variant_follows {nested nested' : VariantStep}
    (below : TypesFollow c table f h types types')
    (inner : VariantsFollow c table f h nested nested') (host : TypeId) (property value : String)
    (v : Visibility) (id : TypeId) (model : ModelType) (visited : List TypeId) :
    Follows table (fun r => (Variant.mapKind f r.1, r.2)) (fun r => (Variant.mapKind h r.1, r.2))
      (c.variant types nested host property value v id model visited)
      (c.variant types' nested' host property value v id model visited) := by
  apply Follows.resolve
  intro chain
  apply (properties_follow below _ v).bind
  · intro props
    split
    · exact .pure _
    · exact (inner.traces ..).grows.bind fun _ => .pure _
  intro props props' alike
  split
  · exact .pure (by simp [Variant.mapKind, alike, mapVariants])
  · apply (inner.follow ..).map
    intro found found' same
    cases found
    cases found'
    obtain ⟨variants, rfl⟩ := Prod.mk.inj same
    simp only [Variant.mapKind, mapVariants_eq, map_markDiscriminator below.left,
      map_markDiscriminator below.right, alike, variants]

theorem addVariant_follows {nested nested' : VariantStep}
    (below : TypesFollow c table f h types types')
    (inner : VariantsFollow c table f h nested nested') (host : TypeId) (property : String)
    (v : Visibility) (state state' : List Variant × List TypeId) (name : String)
    (alike : found f state = found h state') :
    Follows table (found f) (found h) (c.addVariant types nested host property v state name)
      (c.addVariant types' nested' host property v state' name) := by
  obtain ⟨vs, seen⟩ := state
  obtain ⟨vs', seen'⟩ := state'
  obtain ⟨variants, rfl⟩ := Prod.mk.inj alike
  apply Follows.resolve
  intro target
  obtain ⟨id, model⟩ := target
  dsimp only
  split
  · exact .pure alike
  split
  · exact .pure (by simp_all [found])
  split
  · exact .pure (by simp_all [found])
  · apply (variant_follows below inner ..).map
    intro new new' same
    simp_all [found]

theorem variantsWithin_follow (below : TypesFollow c table f h types types') (fuel : Nat) :
    VariantsFollow c table f h (c.variantsWithin types fuel) (c.variantsWithin types' fuel) := by
  induction fuel with
  | zero => exact ⟨variantsWithin_trace below.traces 0, fun _ _ _ _ => .throw⟩
  | succ fuel ih =>
    refine ⟨variantsWithin_trace below.traces _, fun host property v visited => ?_⟩
    unfold variantsWithin
    split
    · exact .pure rfl
    · refine .foldlM (fun state name => ?_) (fun state state' name alike => ?_) _ rfl
      · exact (addVariant_traces below.traces ih.traces host property v state name).grows
      · exact addVariant_follows below ih host property v state state' name alike

theorem objectBy_follows (below : TypesFollow c table f h types types') (id : TypeId)
    (v : Visibility) : Follows table (ObjectSchema.mapKind f) (ObjectSchema.mapKind h)
      (c.objectBy types id v) (c.objectBy types' id v) := by
  unfold objectBy
  split
  · exact .throw
  rename_i model _
  have variants := variantsWithin_follow below (c.graph.types.size + 2)
  apply Follows.resolve
  intro payload
  apply (properties_follow below payload v).bind
  · intro props
    apply (additional_traces below.traces model v).grows.bind
    intro additional
    split
    · exact .pure _
    · exact (variants.traces ..).grows.bind fun _ => .pure _
  intro props props' alike
  apply (additional_follows below model v).bind
  · intro additional
    split
    · exact .pure _
    · exact (variants.traces ..).grows.bind fun _ => .pure _
  intro additional additional' alike'
  split
  · exact .pure (by simp [ObjectSchema.mapKind, alike, alike'])
  · apply (variants.follow ..).map
    intro found found' same
    cases found
    cases found'
    obtain ⟨variants, -⟩ := Prod.mk.inj same
    simp only [ObjectSchema.mapKind, map_markDiscriminator below.left,
      map_markDiscriminator below.right, alike, alike', variants]

end Layers

def seen (names : Slot → Option String) (definitions : OrderedMap String Schema)
    (unfolded depth : Nat) (kind : SchemaKind) : SchemaKind :=
  ((kind.resolve names).unfold definitions unfolded).outline depth

/-- A table in which every class is built, and the shared ones are defined. -/
structure Complete (c : Converter) (table : ClassTable) (names : Slot → Option String)
    (definitions : OrderedMap String Schema) : Prop where
  built : ∀ slot key, table.keys[slot]? = some key → Built c table slot
  defined : ∀ slot body, 1 < table.count slot → table.body? slot = some body →
    ∃ name, names slot = some name ∧ definitions.get? name = some (body.resolve names)
  objects : ∀ name s, definitions.get? name = some s → s.kind.isObjectLike

section Models

variable {c : Converter} {table : ClassTable} {names : Slot → Option String}
  {definitions : OrderedMap String Schema}

theorem Complete.transparent (complete : Complete c table names definitions) (n k : Nat) :
    SchemaKind.Transparent (seen names definitions n k) :=
  ((SchemaKind.transparent_resolve names).comp
    (SchemaKind.transparent_unfold complete.objects n)).comp (SchemaKind.transparent_outline k)

/-- What is seen of a labelled object is what it holds, one model less deep. -/
theorem seen_object (n k : Nat) (object : ObjectSchema) (label : ClassRef)
    (format : Option ObjectFormat) :
    seen names definitions n (k + 1) (.object { object with label := some label, format }) =
      .object
        { object.mapKind (seen names definitions n k) with label := none, format := none } := by
  have held : object.mapKind (seen names definitions n k) =
      ((object.mapKind (.resolve names)).mapKind (.unfold definitions n)).mapKind (.outline k) := by
    rw [ObjectSchema.mapKind_mapKind, ObjectSchema.mapKind_mapKind]
    rfl
  rw [seen, SchemaKind.resolve, ObjectSchema.resolve_eq, SchemaKind.unfold_object,
    SchemaKind.outline_succ_object rfl, held]
  rfl

/-- Nothing is seen of it when no more models are to be seen. -/
theorem seen_object_zero (n : Nat) (object : ObjectSchema) (label : ClassRef)
    (format : Option ObjectFormat) :
    seen names definitions n 0 (.object { object with label := some label, format }) = .cut := by
  rw [seen, SchemaKind.resolve, ObjectSchema.resolve_eq, SchemaKind.unfold_object]
  exact SchemaKind.outline_zero_object rfl

/-- A reference is seen as what is stored for its class. -/
theorem seen_reference {n k : Nat} {slot : Slot} {name : String} {body : Schema}
    (named : names slot = some name) (defined : definitions.get? name = some (body.resolve names)) :
    seen names definitions (n + 1) k (.reference (.shared slot none)) =
      seen names definitions n k body.kind := by
  rw [seen, SchemaKind.resolve, ClassRef.resolve, named, SchemaKind.unfold_reference rfl defined,
    Schema.resolve_eq]
  rfl

theorem exists_object (complete : Complete c table names definitions) {n k fuel : Nat}
    (deep : k ≤ n) {id : TypeId} {v : Visibility} {site : List Constraints} {g g' : Gathered}
    {s : Schema} (run : Yields (c.modelWithin fuel id v site) g s g')
    (within : Within g'.classes table) :
    ∃ fuel object g₁ g₂ m label format,
      Yields (c.objectBy (c.typesBy (c.modelWithin fuel)) id v) g₁ object g₂ ∧
      Within g₂.classes table ∧ k ≤ m + 1 ∧
      s.mapKind (seen names definitions n k) = .ofKind (seen names definitions m k
        (.object { object with label := some label, format })) := by
  rcases modelWithin_cases run with ⟨slot, entered, before, rfl⟩ |
    ⟨inner, slot, object, g₁, g₂, -, entered, new, built, rfl, stored⟩
  · have key := within.key (enter_spec entered).1
    obtain ⟨key', built, inside, body, stored⟩ := complete.built slot _ key
    obtain ⟨rfl, rfl⟩ := Prod.mk.inj (Option.some.inj (key.symm.trans key'))
    rename_i inner site' object o g₁ g₂
    obtain ⟨name, named, defined⟩ :=
      complete.defined slot _ (Nat.lt_of_lt_of_le before (within.counts slot)) stored
    obtain ⟨format, eq⟩ := c.body_eq (some (.shared slot none)) id site' object
    cases eq.symm.trans body
    cases n with
    | zero =>
      obtain rfl : k = 0 := by omega
      refine ⟨inner, object, g₁, g₂, 0, .shared slot none, format, built, inside, by omega, ?_⟩
      rw [seen_object_zero]
      rfl
    | succ n =>
      refine ⟨inner, object, g₁, g₂, n, .shared slot none, format, built, inside, deep, ?_⟩
      exact congrArg Schema.ofKind (seen_reference named defined)
  · obtain ⟨format, body⟩ := c.body_eq (some (.shared slot none)) id site object
    rw [stored] at within
    exact ⟨inner, object, g₁, g₂, n, _, format, built, within_store.trans within, by omega,
      by rw [body]; rfl⟩

/-- Models of a pass are seen as those that are built at every occurrence. -/
theorem models_follow (complete : Complete c table names definitions)
    (label : TypeId → Visibility → ClassRef) {n k : Nat} (deep : k ≤ n) (fuel : Nat) :
    ModelsFollow c table (seen names definitions n k) (.outline k) (c.modelWithin fuel)
      (c.rebuild label k) := by
  induction k generalizing n fuel with
  | zero =>
    refine ⟨complete.transparent n 0, SchemaKind.transparent_outline 0, modelWithin_traces fuel, ?_⟩
    intro id v site
    refine ⟨(modelWithin_traces fuel id v site).grows, ?_⟩
    intro g s g' run within g₀
    obtain ⟨_, object, _, _, m, target, format, -, -, -, alike⟩ :=
      exists_object complete deep run within
    refine ⟨_, g₀, rfl, rfl, ?_⟩
    rw [alike, seen_object_zero]
    rfl
  | succ k ih =>
    refine ⟨complete.transparent n _, SchemaKind.transparent_outline _, modelWithin_traces fuel, ?_⟩
    intro id v site
    refine ⟨(modelWithin_traces fuel id v site).grows, ?_⟩
    intro g s g' run within g₀
    obtain ⟨inner, object, g₁, g₂, m, target, format, built, inside, deep', alike⟩ :=
      exists_object complete deep run within
    have below := typesWithin_follow (ih (Nat.le_of_succ_le_succ deep') inner)
      (c.graph.types.size + 2)
    obtain ⟨object', g₃, again, same, seenAlike⟩ :=
      (objectBy_follows below id v).follow g₁ object g₂ built inside g₀
    refine ⟨c.body (some (label id v)) id site object', g₃,
      yields_bind.mpr ⟨object', g₃, again, yields_pure.mpr ⟨rfl, rfl⟩⟩, same, ?_⟩
    obtain ⟨format', body⟩ := c.body_eq (some (label id v)) id site object'
    rw [alike, body, seen_object, seenAlike, Schema.mapKind, Schema.ofKind, Schema.ofKind,
      SchemaKind.outline_succ_object rfl]
    rfl

end Models

def rebuilds (c : Converter) (label : TypeId → Visibility → ClassRef) (depth : Nat)
    (calls : List Call) : ConvertM (List (Option Tree)) :=
  calls.mapM (c.answerBy (c.rebuild label depth))

theorem answerBy_follows {c : Converter} {table : ClassTable} {f h : SchemaKind → SchemaKind}
    {models models' : ModelStep} (known : ModelsFollow c table f h models models') (call : Call) :
    Follows table (Option.map (Tree.mapKind f)) (Option.map (Tree.mapKind h))
      (c.answerBy models call) (c.answerBy models' call) := by
  have types := typesWithin_follow known (c.graph.types.size + 2)
  cases call with
  | type type ctx site =>
    refine (types.follow type ctx site).map fun s s' alike => ?_
    cases s <;> cases s' <;> simp_all [Tree.mapKind]
  | property p ctx =>
    refine (propertyBy_follows types p ctx.visibility).map fun s s' alike => ?_
    cases s <;> cases s' <;> simp_all [Tree.mapKind]
  | model id ctx site =>
    refine (known.follow id ctx.visibility site).map fun s s' alike => ?_
    simp [Tree.mapKind, alike]

/-- At the end of a pass every class is built, and the shared ones are defined. -/
theorem complete_of_answers {c : Converter} {calls : List Call} {reports : Diagnostics}
    {trees : List (Option Tree)} {g : Gathered}
    (run : Yields (c.answers calls) ⟨{}, reports⟩ trees g) (stage : Stage) :
    Complete c g.classes (g.classes.finalize c.graph stage).nameOf
      (g.classes.finalize c.graph stage).definitions where
  built slot key known := built_of_answers run known
  defined slot body shared stored := by
    obtain ⟨name, named⟩ := nameOf_finalize c.graph stage shared
    exact ⟨name, named, definitions_get? named stored⟩
  objects name s found := by
    obtain ⟨slot, body, stored, -, rfl⟩ :=
      stored_of_mem_definitions (OrderedMap.mem_of_get? found)
    obtain ⟨o, -, rfl⟩ := (accounts_of_answers run).inline_of_stored stored
    rfl

theorem rebuilds_follow {c : Converter} {table : ClassTable} {f h : SchemaKind → SchemaKind}
    {label : TypeId → Visibility → ClassRef} {depth : Nat}
    (known : ModelsFollow c table f h c.models (c.rebuild label depth)) (calls : List Call) :
    Follows table (List.map (Option.map (Tree.mapKind f))) (List.map (Option.map (Tree.mapKind h)))
      (c.answers calls) (c.rebuilds label depth calls) := by
  unfold answers rebuilds
  rw [answer_eq]
  induction calls with
  | nil => exact .pure rfl
  | cons call rest ih =>
    rw [List.mapM_cons, List.mapM_cons]
    refine (answerBy_follows known call).bind (fun _ => ih.grows.bind fun _ => .pure _)
      fun tree tree' alike => ih.map fun trees trees' others => ?_
    rw [List.map_cons, List.map_cons, alike, others]

/-- Sharing loses nothing. Take the trees of a pass with all names set, unfold their references at
least `depth` deep, and cut them there: that is what comes out if models are built again wherever
they occur, `depth` inside each other, whatever the classes are called there and whatever has been
gathered before. No class is entered for it. -/
theorem sharing_loses_nothing (c : Converter) (calls : List Call) (reports : Diagnostics)
    (stage : Stage) (label : TypeId → Visibility → ClassRef) {unfolded depth : Nat}
    (deep : depth ≤ unfolded) {trees : List (Option Tree)} {g : Gathered}
    (run : Yields (c.answers calls) ⟨{}, reports⟩ trees g) (g₀ : Gathered) :
    let pass := g.classes.finalize c.graph stage
    ∃ rebuilt g₁, Yields (c.rebuilds label depth calls) g₀ rebuilt g₁ ∧
      g₁.classes = g₀.classes ∧
      trees.map (Option.map fun tree => (tree.resolve pass.nameOf).mapKind fun kind =>
          (kind.unfold pass.definitions unfolded).outline depth) =
        rebuilt.map (Option.map (Tree.mapKind (.outline depth))) := by
  intro pass
  have known := models_follow (complete_of_answers run stage) label deep
    (c.graph.types.size + 2)
  obtain ⟨rebuilt, g₁, again, same, alike⟩ :=
    (rebuilds_follow known calls).follow _ trees g run (.refl _) g₀
  refine ⟨rebuilt, g₁, again, same, ?_⟩
  rw [← alike]
  refine List.map_congr_left fun tree _ => congrArg (Option.map · tree) (funext fun tree => ?_)
  cases tree with
  | plain s =>
    rw [Tree.resolve, Schema.resolve_eq]
    rfl
  | named p =>
    rw [Tree.resolve, NamedSchema.resolve_eq]
    rfl

/-- Three nodes deep, the reference that closes the cycle is followed twice. -/
theorem nodes_unfolded : ∃ trees g, Yields (nodes.answers nodeCalls) ⟨{}, []⟩ trees g ∧
    ∃ rebuilt g₁,
      Yields (nodes.rebuilds (fun _ _ => .external "Node") 3 nodeCalls) ⟨{}, []⟩ rebuilt g₁ ∧
      trees.map (Option.map fun tree =>
          (tree.resolve (g.classes.finalize nodes.graph .read).nameOf).mapKind fun kind =>
            (kind.unfold (g.classes.finalize nodes.graph .read).definitions 3).outline 3) =
        rebuilt.map (Option.map (Tree.mapKind (.outline 3))) := by
  refine ⟨_, _, rfl, ?_⟩
  obtain ⟨rebuilt, g₁, again, -, alike⟩ := sharing_loses_nothing nodes nodeCalls [] .read
    (fun _ _ => .external "Node") (Nat.le_refl 3) rfl ⟨{}, []⟩
  exact ⟨rebuilt, g₁, again, alike⟩

end Converter
end WireSchema
