import WireSchema.Proofs.Plain
import WireSchema.Proofs.Table

/-! What a pass does to its class table, told from the classes that its trees mention. The rules of
`Fills` are all that a conversion can do, so a property of the table is shown by induction on them
and without a look at the conversion. -/
namespace WireSchema

open ConvertM

/-- The table `t` becomes `t'` while trees with the given mentions, in whatever order, are built. A
class that was met before is only counted. One that was not is built in between, and stored when it
is complete. -/
inductive Fills (c : Converter) : ClassTable → List Mention → ClassTable → Prop
  | nothing {t} : Fills c t [] t
  | reorder {t t' ms ms'} : Fills c t ms t' → ms.Perm ms' → Fills c t ms' t'
  | append {t t₁ t₂ ms ms'} : Fills c t ms t₁ → Fills c t₁ ms' t₂ → Fills c t (ms ++ ms') t₂
  | again {t t₁ id v slot} : t.enter id v = (slot, t₁) → 1 < t₁.count slot →
      Fills c t [.reference (.shared slot none)] t₁
  | first {t id v slot fuel site object o} {g₁ g₂ : Gathered} :
      t.enter id v = (slot, g₁.classes) → g₁.classes.count slot ≤ 1 →
      Yields (c.objectBy (c.typesBy (c.modelWithin fuel)) id v) g₁ object g₂ →
      Fills c g₁.classes object.mentions g₂.classes →
      c.body (some (.shared slot none)) id site object = .ofKind (.object o) →
      Fills c t (.inline (.shared slot none) o :: object.mentions)
        (g₂.classes.store slot (.ofKind (.object o)))

/-- A step that adds to the mentions `before`, the trees built so far, what the table says. -/
structure Traces {α : Type} (c : Converter) (before : List Mention) (x : ConvertM α)
    (after : α → List Mention) : Prop where
  fills : ∀ g a g', Yields x g a g' →
    ∃ ms, (after a).Perm (before ++ ms) ∧ Fills c g.classes ms g'.classes

namespace Traces

variable {α β : Type} {c : Converter} {before : List Mention} {x : ConvertM α}
  {f : α → ConvertM β} {between : α → List Mention} {after : β → List Mention}

theorem reorder {a : α} (same : (between a).Perm before) : Traces c before (pure a) between := by
  refine ⟨fun g b g' run => ?_⟩
  obtain ⟨rfl, rfl⟩ := yields_pure.mp run
  exact ⟨[], by simpa using same, .nothing⟩

theorem pure {a : α} (same : between a = before) : Traces c before (pure a) between :=
  .reorder (.of_eq same)

theorem throw {e : ConvertError} : Traces c before (throw e : ConvertM α) between :=
  ⟨fun _ _ _ run => absurd run not_yields_throw⟩

theorem bind (first : Traces c before x between) (rest : ∀ a, Traces c (between a) (f a) after) :
    Traces c before (x >>= f) after := by
  refine ⟨fun g b g' run => ?_⟩
  obtain ⟨a, g₁, firstRun, restRun⟩ := yields_bind.mp run
  obtain ⟨ms, eq, pass⟩ := first.fills g a g₁ firstRun
  obtain ⟨ms', eq', pass'⟩ := (rest a).fills g₁ b g' restRun
  refine ⟨ms ++ ms', ?_, pass.append pass'⟩
  rw [← List.append_assoc]
  exact eq'.trans (eq.append_right ms')

theorem throw_bind {e : ConvertError} :
    Traces c before ((MonadExcept.throw e : ConvertM α) >>= f) after := by
  refine ⟨fun g b g' run => ?_⟩
  obtain ⟨_, _, failed, _⟩ := yields_bind.mp run
  exact absurd failed not_yields_throw

theorem frame (alone : Traces c [] x between) :
    Traces c before x fun a => before ++ between a := by
  refine ⟨fun g a g' run => ?_⟩
  obtain ⟨ms, eq, pass⟩ := alone.fills g a g' run
  exact ⟨ms, eq.append_left before, pass⟩

theorem ofReports (reports : Reports x) (same : ∀ g a g', Yields x g a g' → between a = before) :
    Traces c before x between := by
  refine ⟨fun g a g' run => ?_⟩
  exact ⟨[], by simp [same g a g' run], (reports.yields run).1 ▸ .nothing⟩

theorem ofResolve {r : Except ResolveError α} :
    Traces c before (ConvertM.ofResolve r) fun _ => before := by
  refine ⟨fun g a g' run => ?_⟩
  obtain ⟨_, rfl⟩ := yields_ofResolve.mp run
  exact ⟨[], by simp, .nothing⟩

theorem ofExcept {r : Except ConvertError α} :
    Traces c before (MonadExcept.ofExcept r) fun _ => before := by
  cases r with
  | error e => exact .throw
  | ok a => exact .pure rfl

theorem keep {f : α → ConvertM (Option β)} {mentions : β → List Mention}
    (each : ∀ a, Traces c [] (f a) fun b => b.toList.flatMap mentions) (items : List α) :
    Traces c [] (ConvertM.keep f items) fun bs => bs.flatMap mentions := by
  induction items with
  | nil => exact .pure rfl
  | cons a rest ih =>
    exact (each a).bind fun b => ih.frame.bind fun bs => .pure (by simp)

theorem foldlM {f : β → α → ConvertM β} (each : ∀ b a, Traces c (after b) (f b a) after)
    (items : List α) (b : β) : Traces c (after b) (items.foldlM f b) after := by
  induction items generalizing b with
  | nil => exact .pure rfl
  | cons a rest ih => exact (each b a).bind fun b' => ih b'

end Traces

theorem Plain.traces {c : Converter} {x : ConvertM (Option Schema)} (plain : Plain x) :
    Traces c [] x itemMentions := by
  refine .ofReports plain.reports fun g a g' run => ?_
  cases a with
  | none => rfl
  | some s => exact (Schema.mentions_eq s).trans (plain.flat g s g' run).mentions

namespace Converter

variable {c : Converter} {types : TypeStep} {models : ModelStep}

def TypesTrace (c : Converter) (types : TypeStep) : Prop :=
  ∀ type ctx site, Traces c [] (types type ctx site) itemMentions

def ModelsTrace (c : Converter) (models : ModelStep) : Prop :=
  ∀ id v site, Traces c [] (models id v site) Schema.mentions

theorem union_traces (below : TypesTrace c types) (decl : UnionType) (ctx : Context)
    (site : List Constraints) : Traces c [] (c.union types decl ctx site) itemMentions := by
  refine Traces.ofResolve.bind fun variants => ?_
  have chosen (variants : List (TypeRef × Resolved)) :
      Traces c [] (c.oneOf types decl variants ctx site) itemMentions := by
    unfold oneOf
    split
    · exact .ofReports (.bind (.report ..) fun _ => .pure _) fun g a g' run => by
        simp only [yields_bind, yields_pure] at run
        obtain ⟨_, _, _, rfl, _⟩ := run
        rfl
    · exact below ..
    · exact (c.plain_enumUnion ..).traces
  exact (chosen _).bind fun schema => .pure (by
    cases schema <;> simp [itemMentions, Schema.mentions_eq])

theorem array_traces (below : TypesTrace c types) (decl : ArrayType) (ctx : Context)
    (site : List Constraints) : Traces c [] (array types decl ctx site) itemMentions :=
  (below ..).bind fun _ => .pure rfl

theorem additional_traces (below : TypesTrace c types) (model : ModelType) (v : Visibility) :
    Traces c [] (c.additional types model v) additionalMentions := by
  unfold additional
  split
  · exact .pure rfl
  · split
    · exact .pure rfl
    · exact (below ..).bind fun _ => .pure rfl

theorem record_traces (below : TypesTrace c types) (model : ModelType) (v : Visibility)
    (site : List Constraints) : Traces c [] (c.record types model v site) itemMentions :=
  (additional_traces below ..).bind fun additional => .pure (by
    simp only [itemMentions, mentions_ofKind]
    rw [SchemaKind.mentions_harvest_object _ _ _ rfl]
    simp [ObjectSchema.mentions, propMentions, variantMentions])

theorem linked_traces (below : TypesTrace c types) (link : PropertyLink) (ctx : Context)
    (site : List Constraints) : Traces c [] (c.linked types link ctx site) itemMentions := by
  refine Traces.ofResolve.bind fun found => ?_
  dsimp only
  split
  · exact .throw
  · exact below ..

theorem declared_traces (known : ModelsTrace c models) (below : TypesTrace c types) (id : TypeId)
    (decl : Declaration) (ctx : Context) (site : List Constraints) :
    Traces c [] (c.declared models types id decl ctx site) itemMentions := by
  unfold declared
  cases decl with
  | scalar _ =>
    refine Traces.ofResolve.bind fun chain => .pure ?_
    exact (Schema.mentions_eq _).trans (chain.flat_schema site).mentions
  | model model =>
    simp only
    split
    · exact record_traces below ..
    · exact (known ..).bind fun s => .pure rfl
  | array decl => exact array_traces below ..
  | union decl => exact union_traces below ..
  | enum decl => exact (c.plain_enumeration ..).traces
  | property link => exact linked_traces below ..

theorem typeStep_traces (known : ModelsTrace c models) (below : TypesTrace c types) :
    TypesTrace c (c.typeStep models types) := by
  intro type ctx site
  refine Traces.ofResolve.bind fun resolved => ?_
  cases resolved with
  | declared id decl => exact declared_traces known below ..
  | builtin builtin =>
    refine .pure ?_
    exact (Schema.mentions_eq _).trans ((ScalarChain.ofBuiltin builtin).flat_schema site).mentions
  | intrinsic intrinsic => exact (c.plain_intrinsic ..).traces
  | literal value => exact (c.plain_literal _).traces

theorem typesWithin_traces (known : ModelsTrace c models) (fuel : Nat) :
    TypesTrace c (c.typesWithin models fuel) := by
  induction fuel with
  | zero => exact fun _ _ _ => .throw
  | succ fuel ih => exact typeStep_traces known ih

theorem typesBy_traces (known : ModelsTrace c models) : TypesTrace c (c.typesBy models) :=
  typesWithin_traces known _

theorem propertyBy_traces (below : TypesTrace c types) (p : EffectiveProperty) (v : Visibility) :
    Traces c [] (c.propertyBy types p v) fun s => s.toList.flatMap NamedSchema.mentions := by
  refine (below ..).bind fun schema => ?_
  cases schema with
  | none => exact .pure rfl
  | some schema =>
    refine .pure ?_
    cases schema
    simp [itemMentions, NamedSchema.mentions, Schema.mentions]

theorem properties_trace (below : TypesTrace c types) (ps : List EffectiveProperty)
    (v : Visibility) : Traces c [] (keep (fun p => c.propertyBy types p v) ps) propMentions := by
  have := Traces.keep (fun p => propertyBy_traces below p v) ps
  simpa only [← propMentions_eq] using this

def VariantsTrace (c : Converter) (nested : VariantStep) : Prop :=
  ∀ host property v visited,
    Traces c [] (nested host property v visited) fun found => variantMentions found.1

theorem variant_traces {nested : VariantStep} (below : TypesTrace c types)
    (inner : VariantsTrace c nested) (host : TypeId) (property value : String) (v : Visibility)
    (id : TypeId) (model : ModelType) (visited : List TypeId) :
    Traces c [] (c.variant types nested host property value v id model visited)
      fun found => found.1.mentions := by
  refine Traces.ofResolve.bind fun chain => (properties_trace below _ v).bind fun props => ?_
  split
  · exact .pure (by simp [Variant.mentions, variantMentions])
  · refine (inner ..).frame.bind fun found => .pure ?_
    simp [Variant.mentions, propMentions_markDiscriminator]

theorem addVariant_traces {nested : VariantStep} (below : TypesTrace c types)
    (inner : VariantsTrace c nested) (host : TypeId) (property : String) (v : Visibility)
    (state : List Variant × List TypeId) (name : String) :
    Traces c (variantMentions state.1) (c.addVariant types nested host property v state name)
      fun found => variantMentions found.1 := by
  apply Traces.ofResolve.bind
  intro target
  obtain ⟨id, model⟩ := target
  dsimp only
  split
  · exact .pure rfl
  split
  · exact .pure rfl
  split
  · exact .pure rfl
  · exact (variant_traces below inner ..).frame.bind fun found => .pure (by
      simp [variantMentions_eq])

theorem variantsWithin_trace (below : TypesTrace c types) (fuel : Nat) :
    VariantsTrace c (c.variantsWithin types fuel) := by
  induction fuel with
  | zero => exact fun _ _ _ _ => .throw
  | succ fuel ih =>
    intro host property v visited
    unfold variantsWithin
    split
    · exact .pure rfl
    · exact Traces.foldlM (addVariant_traces below ih host property v) _ ([], visited)

theorem objectBy_traces (below : TypesTrace c types) (id : TypeId) (v : Visibility) :
    Traces c [] (c.objectBy types id v) ObjectSchema.mentions := by
  unfold objectBy
  split
  · exact .throw
  · refine Traces.ofResolve.bind fun payload => (properties_trace below _ v).bind fun props => ?_
    refine (additional_traces below ..).frame.bind fun additional => ?_
    split
    · exact .pure (by simp [ObjectSchema.mentions, variantMentions])
    · refine (variantsWithin_trace below ..).frame.bind fun found => .pure ?_
      simp [ObjectSchema.mentions, propMentions_markDiscriminator]

/-- The body of a model is its object, under the label and with bounds. -/
theorem body_eq (c : Converter) (label : Option ClassRef) (id : TypeId) (site : List Constraints)
    (object : ObjectSchema) : ∃ format,
      c.body label id site object = .ofKind (.object { object with label, format }) :=
  ⟨_, rfl⟩

theorem mentions_of_body {label : ClassRef} {id : TypeId} {site : List Constraints}
    {object o : ObjectSchema} (body : c.body (some label) id site object = .ofKind (.object o)) :
    (SchemaKind.object o).mentions = .inline label o :: object.mentions := by
  obtain ⟨format, eq⟩ := c.body_eq (some label) id site object
  cases eq.symm.trans body
  cases object
  rfl

/-- All that can happen at an occurrence of a model: it was met before, or it is built and
stored. -/
theorem modelWithin_cases {fuel : Nat} {id : TypeId} {v : Visibility} {site : List Constraints}
    {g g' : Gathered} {s : Schema} (run : Yields (c.modelWithin fuel id v site) g s g') :
    (∃ slot, g.classes.enter id v = (slot, g'.classes) ∧ 1 < g'.classes.count slot ∧
      s = .ofKind (.reference (.shared slot none))) ∨
    ∃ inner slot object g₁ g₂, fuel = inner + 1 ∧ g.classes.enter id v = (slot, g₁.classes) ∧
      g₁.classes.count slot ≤ 1 ∧
      Yields (c.objectBy (c.typesBy (c.modelWithin inner)) id v) g₁ object g₂ ∧
      s = c.body (some (.shared slot none)) id site object ∧
      g'.classes = g₂.classes.store slot s := by
  cases fuel with
  | zero => exact absurd run not_yields_throw
  | succ fuel =>
    obtain ⟨⟨slot, n⟩, g₁, visit, run⟩ := yields_bind.mp run
    obtain ⟨t, entered, rfl, rfl⟩ := yields_visit.mp visit
    simp only at run
    split at run
    · rename_i before
      obtain ⟨rfl, rfl⟩ := yields_pure.mp run
      exact .inl ⟨slot, entered, before, rfl⟩
    · rename_i new
      obtain ⟨object, g₂, built, run⟩ := yields_bind.mp run
      obtain ⟨_, g₃, stored, run⟩ := yields_bind.mp run
      obtain rfl := yields_store.mp stored
      obtain ⟨rfl, rfl⟩ := yields_pure.mp run
      exact .inr ⟨fuel, slot, object, _, g₂, rfl, entered, Nat.le_of_not_lt new, built, rfl, rfl⟩

theorem modelWithin_traces (fuel : Nat) : ModelsTrace c (c.modelWithin fuel) := by
  induction fuel with
  | zero => exact fun _ _ _ => .throw
  | succ fuel ih =>
    refine fun id v site => ⟨fun g s g' run => ?_⟩
    rcases modelWithin_cases run with ⟨slot, entered, before, rfl⟩ |
      ⟨_, slot, object, g₁, g₂, ⟨⟩, entered, new, built, rfl, stored⟩
    · exact ⟨_, .refl _, .again entered before⟩
    · obtain ⟨format, body⟩ := c.body_eq (some (.shared slot none)) id site object
      obtain ⟨ms, same, fills⟩ := (objectBy_traces (typesBy_traces ih) id v).fills _ object g₂ built
      rw [stored, body]
      refine ⟨_, .of_eq (mentions_of_body body), ?_⟩
      exact .first entered new built (fills.reorder same.symm) body

theorem models_trace : ModelsTrace c c.models := modelWithin_traces _

theorem convert_traces : TypesTrace c c.convert := typesBy_traces models_trace

end Converter
end WireSchema
