import WireSchema.Proofs.Agreement
import WireSchema.Proofs.Calls

/-! Conversions for agreeing graphs run in parallel: each step of the one is matched by the step of
the other at the same place, with the same result, and leaves tables that differ in the numbers of
types only. -/
namespace WireSchema

open ConvertM Converter

/-- Steps with one result, where the tables differ in the numbers of types only. -/
abbrev InStep {α : Type} (ρ : TypeId → TypeId) (x y : ConvertM α) : Prop :=
  Parallel (Gathered.renumber ρ) Eq x y

def ParallelTypes (v : Visibility) (ρ : TypeId → TypeId) (types types' : TypeStep) : Prop :=
  ∀ type ctx site, ctx.visibility = v →
    InStep ρ (types type ctx site) (types' type ctx site)

def ParallelModels (v : Visibility) (ρ : TypeId → TypeId) (models models' : ModelStep) : Prop :=
  ∀ id site, InStep ρ (models id v site) (models' (ρ id) v site)

def ParallelVariants (graph : TypeGraph) (v : Visibility) (ρ : TypeId → TypeId)
    (nested nested' : VariantStep) : Prop :=
  ∀ host property looked,
    (∃ id model, graph.model? id = some model ∧ model.discriminator = some property) →
    Parallel (Gathered.renumber ρ) (fun found found' => found' = (found.1, found.2.map ρ))
      (nested host property v looked) (nested' (ρ host) property v (looked.map ρ))

abbrev AgreeingVariants (graph : TypeGraph) (v : Visibility) (ρ : TypeId → TypeId) :
    List (TypeRef × Resolved) → List (TypeRef × Resolved) → Prop :=
  List.Forall₂ fun a b => b.1 = a.1 ∧ AgreeingResolved graph v ρ a.1.text a.2 b.2

structure Counterparts (v : Visibility) (ρ : TypeId → TypeId) (c c' : Converter) : Prop where
  graph : Agree v ρ c.graph c'.graph
  target : c'.target = c.target

namespace Counterparts

variable {v : Visibility} {ρ : TypeId → TypeId} {c c' : Converter} {models models' : ModelStep}
  {types types' : TypeStep} {nested nested' : VariantStep}

section Types

variable {variants variants' : List (TypeRef × Resolved)}

theorem array_parallel (below : ParallelTypes v ρ types types') (decl : ArrayType) {ctx : Context}
    (visible : ctx.visibility = v) (site : List Constraints) :
    InStep ρ (array types decl ctx site) (array types' decl ctx site) :=
  (below decl.item (ctx.withCollection none) [] visible).andThen fun _ => .pure rfl

variable (twins : Counterparts v ρ c c')
include twins

theorem literal_parallel (value : Json) : InStep ρ (c.literal value) (c'.literal value) := by
  unfold literal
  split
  · exact (Parallel.report twins.target ..).andThen fun _ => .pure rfl
  · exact .pure rfl

theorem intrinsic_parallel (type : Intrinsic) (ref : TypeRef) :
    InStep ρ (c.intrinsic type ref) (c'.intrinsic type ref) := by
  cases type with
  | null => exact (Parallel.report twins.target ..).andThen fun _ => .pure rfl
  | _ => exact .pure rfl

theorem limitTo_parallel (kind : SchemaKind) (values : List Json) (owner : String) :
    InStep ρ (c.limitTo kind values owner) (c'.limitTo kind values owner) := by
  unfold limitTo
  split
  · exact .pure rfl
  · exact (Parallel.report twins.target ..).andThen fun _ => .pure rfl

theorem enumeration_parallel (decl : EnumType) (site : List Constraints) :
    InStep ρ (c.enumeration decl site) (c'.enumeration decl site) := by
  unfold enumeration
  split
  · exact (Parallel.report twins.target ..).andThen fun _ => .pure rfl
  · exact (twins.limitTo_parallel ..).andThen fun kind => .pure rfl

theorem unsupportedUnion_parallel (decl : UnionType) (variant : TypeRef) :
    InStep ρ (c.unsupportedUnion decl variant) (c'.unsupportedUnion decl variant) :=
  (Parallel.report twins.target ..).andThen fun _ => .pure rfl

theorem gatherVariants_eq (related : AgreeingVariants c.graph v ρ variants variants')
    (site : List Constraints) (values : List Json) (scalar : Option Schema) :
    gatherVariants c'.graph site values scalar variants' =
      gatherVariants c.graph site values scalar variants := by
  induction related generalizing values scalar with
  | nil => rfl
  | @cons a b _ _ here _ ih =>
    obtain ⟨ref, resolved⟩ := a
    obtain ⟨ref', resolved'⟩ := b
    obtain ⟨rfl, here⟩ := here
    cases here with
    | declared here =>
      cases here with
      | enum => simp only [gatherVariants, ih]
      | scalar => cases scalar <;> simp only [gatherVariants, twins.graph.ofDeclared_eq, ih]
      | _ => cases scalar <;> rfl
    | literal => simp only [gatherVariants, ih]
    | builtin => cases scalar <;> simp only [gatherVariants, ih]
    | intrinsic => cases scalar <;> rfl

theorem enumUnion_parallel (related : AgreeingVariants c.graph v ρ variants variants')
    (decl : UnionType) (site : List Constraints) :
    InStep ρ (c.enumUnion decl variants site) (c'.enumUnion decl variants' site) := by
  unfold enumUnion
  rw [twins.gatherVariants_eq related]
  split
  · exact twins.unsupportedUnion_parallel ..
  split
  · exact .pure rfl
  split
  · split
    · exact .pure rfl
    · exact (twins.limitTo_parallel ..).andThen fun kind => .pure rfl
  · cases related with
    | nil => exact .pure rfl
    | cons here _ =>
      simp only [here.1]
      exact twins.unsupportedUnion_parallel ..

theorem oneOf_parallel (below : ParallelTypes v ρ types types')
    (related : AgreeingVariants c.graph v ρ variants variants') (decl : UnionType) {ctx : Context}
    (visible : ctx.visibility = v) (site : List Constraints) :
    InStep ρ (c.oneOf types decl variants ctx site) (c'.oneOf types' decl variants' ctx site) := by
  cases related with
  | nil => exact (Parallel.report twins.target ..).andThen fun _ => .pure rfl
  | cons here rest =>
    cases rest with
    | nil =>
      simp only [oneOf, here.1]
      exact below _ ctx site visible
    | cons next rest =>
      exact twins.enumUnion_parallel (.cons here (.cons next rest)) decl site

theorem union_parallel (below : ParallelTypes v ρ types types') (decl : UnionType) {ctx : Context}
    (visible : ctx.visibility = v) (site : List Constraints) :
    InStep ρ (c.union types decl ctx site) (c'.union types' decl ctx site) := by
  have each (ref : TypeRef) :
      Match (fun a b : TypeRef × Resolved => b.1 = a.1 ∧
        AgreeingResolved c.graph v ρ a.1.text a.2 b.2)
        (do return (ref, ← c.graph.resolve ref)) (do return (ref, ← c'.graph.resolve ref)) :=
    (twins.graph.resolve_agrees ref).bind fun r r' related => .ok ⟨rfl, related⟩
  have null {r r' : Resolved} {key : String} (related : AgreeingResolved c.graph v ρ key r r') :
      isNullVariant r' = isNullVariant r := by cases related <;> rfl
  refine (Parallel.ofResolve (Match.mapM each decl.variants)).bind
    fun variants variants' related => ?_
  have nullable : variants'.any (fun a => isNullVariant a.2) =
      variants.any (fun a => isNullVariant a.2) := by
    induction related with
    | nil => rfl
    | cons here _ ih => rw [List.any_cons, List.any_cons, ih, null here.2]
  have remaining : AgreeingVariants c.graph v ρ (variants.filter fun a => !isNullVariant a.2)
      (variants'.filter fun a => !isNullVariant a.2) :=
    List.rel_filter (fun a b here => by simp [null here.2]) related
  rw [nullable]
  exact (twins.oneOf_parallel below remaining decl visible site).andThen fun s => .pure rfl

theorem additional_parallel (below : ParallelTypes v ρ types types') {model model' : ModelType}
    {key : String} (related : AgreeingModel c.graph v key model model') :
    InStep ρ (c.additional types model v) (c'.additional types' model' v) := by
  obtain ⟨entries⟩ := related
  unfold additional
  cases model.indexer with
  | none => exact .pure rfl
  | some indexer =>
    have items : InStep ρ
        (do return some (Additional.items (← types indexer { visibility := v } [])))
        (do return some (Additional.items (← types' indexer { visibility := v } []))) := by
      exact (below indexer { visibility := v } [] rfl).andThen fun item => .pure rfl
    simp only
    obtain ⟨e, here, there⟩ | ⟨r, r', here, there, related⟩ :=
      (twins.graph.resolve_agrees indexer).cases
    · rw [here, there]
      exact items
    rw [here, there]
    cases related with
    | @intrinsic type =>
      cases type with
      | unknown => exact .pure rfl
      | _ => exact items
    | _ => exact items

theorem record_parallel (below : ParallelTypes v ρ types types') {model model' : ModelType}
    {key : String} (related : AgreeingModel c.graph v key model model') (site : List Constraints) :
    InStep ρ (c.record types model v site) (c'.record types' model' v site) := by
  refine (twins.additional_parallel below related).bind fun additional additional' same => ?_
  obtain ⟨entries⟩ := related
  subst same
  exact .pure rfl

/-- A property that is referred to is not concealed. -/
theorem linked_parallel (below : ParallelTypes v ρ types types') {link : PropertyLink} {id : TypeId}
    (declared : c.graph.declaration? id = some (.property link)) {ctx : Context}
    (visible : ctx.visibility = v) (site : List Constraints) :
    InStep ρ (c.linked types link ctx site) (c'.linked types' link ctx site) := by
  refine (Parallel.ofResolve (twins.graph.modelNamed_agrees link.model)).bind
    fun ⟨owner, model⟩ ⟨owner', model'⟩ related => ?_
  have same : model'.properties.get? link.property = model.properties.get? link.property :=
    related.2.get?_eq fun p conceals => conceals.unlinked id declared
  simp only [same]
  split
  · exact .throw _
  · exact below _ _ _ visible

theorem declared_parallel (known : ParallelModels v ρ models models')
    (below : ParallelTypes v ρ types types') {id : TypeId} {decl decl' : Declaration}
    (here : c.graph.declaration? id = some decl) {key : String}
    (related : AgreeingDeclaration c.graph v key decl decl') {ctx : Context}
    (visible : ctx.visibility = v) (site : List Constraints) :
    InStep ρ (c.declared models types id decl ctx site)
      (c'.declared models' types' (ρ id) decl' ctx site) := by
  cases related with
  | scalar =>
    simp only [declared, twins.graph.ofDeclared_eq]
    exact (Parallel.ofResolve (.refl _)).andThen fun chain => .pure rfl
  | model related =>
    simp only [declared, related.isRecord_eq, visible]
    split
    · exact twins.record_parallel below related site
    · exact (known id site).andThen fun s => .pure rfl
  | array => exact array_parallel below _ visible site
  | union => exact twins.union_parallel below _ visible site
  | enum => exact twins.enumeration_parallel _ site
  | property => exact twins.linked_parallel below here visible site

theorem typeStep_parallel (known : ParallelModels v ρ models models')
    (below : ParallelTypes v ρ types types') :
    ParallelTypes v ρ (c.typeStep models types) (c'.typeStep models' types') := by
  intro type ctx site visible
  obtain ⟨e, here, there⟩ | ⟨r, r', here, there, related⟩ := (twins.graph.resolve_agrees type).cases
  · simp only [typeStep, here, there]
    exact .throw _
  simp only [typeStep, here, there]
  cases related with
  | literal => exact twins.literal_parallel _
  | builtin => exact .pure rfl
  | intrinsic => exact twins.intrinsic_parallel _ type
  | declared related =>
    exact twins.declared_parallel known below (TypeGraph.resolve_declared here).2 related
      visible site

theorem typesWithin_parallel (known : ParallelModels v ρ models models') (fuel : Nat) :
    ParallelTypes v ρ (c.typesWithin models fuel) (c'.typesWithin models' fuel) := by
  induction fuel with
  | zero => exact fun type ctx site visible => .throw _
  | succ fuel ih => exact twins.typeStep_parallel known ih

theorem typesBy_parallel (known : ParallelModels v ρ models models') :
    ParallelTypes v ρ (c.typesBy models) (c'.typesBy models') := by
  unfold typesBy
  rw [twins.graph.size]
  exact twins.typesWithin_parallel known _

end Types

section Models

variable (twins : Counterparts v ρ c c') (below : ParallelTypes v ρ types types')
include twins below

theorem propertyBy_parallel (p : EffectiveProperty) :
    InStep ρ (c.propertyBy types p v) (c'.propertyBy types' (p.renumber ρ) v) := by
  unfold propertyBy
  rw [EffectiveProperty.decl_renumber]
  refine (below p.decl.type _ _ rfl).andThen fun s => ?_
  cases s with
  | none => exact .pure rfl
  | some s =>
    simp only [twins.graph.isSecret_eq]
    exact .pure rfl

omit below in
theorem chainBelow_map (chain : List TypeId) (host id : TypeId) :
    chainBelow (chain.map ρ) (ρ host) (ρ id) = (chainBelow chain host id).map ρ := by
  have dropped : (chain.map ρ).dropWhile (· ≠ ρ host) = (chain.dropWhile (· ≠ host)).map ρ := by
    rw [List.dropWhile_map]
    congr 2
    funext other
    simp [twins.graph.injective.eq_iff]
  unfold chainBelow
  rw [dropped]
  cases chain.dropWhile (· ≠ host) <;> rfl

theorem variant_parallel (further : ParallelVariants c.graph v ρ nested nested') (host : TypeId)
    (property value : String) {id : TypeId} {model model' : ModelType} {key : String}
    (here : c.graph.model? id = some model)
    (related : AgreeingModel c.graph v key model model') (looked : List TypeId) :
    Parallel (Gathered.renumber ρ) (fun found found' => found' = (found.1, found.2.map ρ))
      (c.variant types nested host property value v id model looked)
      (c'.variant types' nested' (ρ host) property value v (ρ id) model' (looked.map ρ)) := by
  refine (Parallel.ofResolve (twins.graph.ancestry_agrees id)).bind fun chain chain' same => ?_
  subst same
  simp only [twins.chainBelow_map, twins.graph.discriminatorNames_eq, twins.graph.collect_eq,
    List.filter_map]
  refine (Parallel.keep (EffectiveProperty.renumber ρ)
    (twins.propertyBy_parallel below) _).andThen fun props => ?_
  obtain ⟨entries⟩ := related
  simp only
  split
  · exact .pure rfl
  · rename_i inner found
    have told := (Option.filter_eq_some_iff.mp found).1
    refine (further id inner looked ⟨id, model, here, told⟩).bind fun found found' same => ?_
    subst same
    exact .pure rfl

theorem addVariant_parallel (further : ParallelVariants c.graph v ρ nested nested')
    (host : TypeId) {property : String}
    (told : ∃ id model, c.graph.model? id = some model ∧ model.discriminator = some property)
    (state : List Variant × List TypeId) (name : String) :
    Parallel (Gathered.renumber ρ) (fun found found' => found' = (found.1, found.2.map ρ))
      (c.addVariant types nested host property v state name)
      (c'.addVariant types' nested' (ρ host) property v (state.1, state.2.map ρ) name) := by
  refine (Parallel.ofResolve (twins.graph.modelNamed_agrees name).known).bind
    fun ⟨id, model⟩ ⟨id', model'⟩ ⟨⟨same, related⟩, found⟩ => ?_
  obtain rfl : id' = ρ id := same
  have here := TypeGraph.modelNamed_ok found
  have template : model'.template = model.template := by
    obtain ⟨entries⟩ := related
    rfl
  simp only [twins.graph.contains_eq, template, twins.graph.pinnedValue?_eq related told]
  split
  · exact .pure rfl
  split
  · exact .pure rfl
  split
  · exact .pure rfl
  · refine (twins.variant_parallel below further host property _ here related (id :: state.2)).bind
      fun found found' same => ?_
    subst same
    exact .pure rfl

theorem variantsWithin_parallel (fuel : Nat) :
    ParallelVariants c.graph v ρ (c.variantsWithin types fuel) (c'.variantsWithin types' fuel) := by
  induction fuel with
  | zero => exact fun host property looked told => .throw _
  | succ fuel ih =>
    intro host property looked told
    unfold variantsWithin
    obtain ⟨here, there⟩ | ⟨model, model', here, there, ⟨entries⟩⟩ := twins.graph.model?_agrees host
    · rw [here, there]
      exact .pure rfl
    rw [here, there]
    refine Parallel.foldlM (fun state state' name same => ?_) model.derived rfl
    subst same
    exact twins.addVariant_parallel below ih host told state name

theorem objectBy_parallel (id : TypeId) :
    InStep ρ (c.objectBy types id v) (c'.objectBy types' (ρ id) v) := by
  unfold objectBy
  obtain ⟨here, there⟩ | ⟨model, model', here, there, related⟩ := twins.graph.model?_agrees id
  · rw [here, there, twins.graph.key_eq]
    exact .throw _
  rw [here, there]
  refine (Parallel.ofResolve (twins.graph.payload_agrees id)).bind fun payload payload' same => ?_
  subst same
  refine (Parallel.keep (EffectiveProperty.renumber ρ) (twins.propertyBy_parallel below) _).andThen
    fun props => ?_
  refine (twins.additional_parallel below related).andThen fun additional => ?_
  obtain ⟨entries⟩ := related
  simp only
  split
  · exact .pure rfl
  · rename_i property told
    rw [twins.graph.size]
    refine (twins.variantsWithin_parallel below _ id property [id] ⟨id, model, here, told⟩).bind
      fun found found' same => ?_
    subst same
    exact .pure rfl

end Models

section Passes

variable (twins : Counterparts v ρ c c')
include twins

theorem body_eq (label : Option ClassRef) (id : TypeId) (site : List Constraints)
    (object : ObjectSchema) : c'.body label (ρ id) site object = c.body label id site object := by
  unfold body
  rw [twins.graph.model?_header (Option.map (·.constraints)) fun _ _ => rfl]

/-- The models of the one pass are built when those of the other are. -/
theorem modelWithin_parallel (fuel : Nat) :
    ParallelModels v ρ (c.modelWithin fuel) (c'.modelWithin fuel) := by
  induction fuel with
  | zero => exact fun id site => .throw _
  | succ fuel ih =>
    intro id site
    refine (Parallel.visit twins.graph.injective id v).andThen fun ⟨slot, count⟩ => ?_
    simp only
    split
    · exact .pure rfl
    refine (twins.objectBy_parallel (twins.typesBy_parallel ih) id).andThen fun object => ?_
    simp only [twins.body_eq]
    exact (Parallel.store slot _).andThen fun _ => .pure rfl

theorem models_parallel : ParallelModels v ρ c.models c'.models := by
  unfold models
  rw [twins.graph.size]
  exact twins.modelWithin_parallel _

theorem convert_parallel : ParallelTypes v ρ c.convert c'.convert :=
  twins.typesBy_parallel twins.models_parallel

end Passes

end Counterparts
end WireSchema
