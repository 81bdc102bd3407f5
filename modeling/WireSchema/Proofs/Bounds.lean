import WireSchema.Proofs.Closure
import WireSchema.Proofs.Harvesting
import WireSchema.Proofs.Watching

/-! Where the bounds of a shared definition come from. A class is built when it is met first, and
what is stored for it has the bounds of the place where that was. -/
namespace WireSchema

open ConvertM ClassTable Converter

namespace ObjectFormat

theorem ofLayers_eq (layers : List Constraints) :
    ofLayers layers = nonEmptyFormat {}
      { maxProperties := layers.findSome? (·.maxProperties)
        minProperties := layers.findSome? (·.minProperties) } := by
  simp [ofLayers, foldl_merge]

/-- The place of use makes no difference if it sets no other bound than the model itself. -/
theorem ofLayers_eq_own_iff (site : List Constraints) (own : Constraints) :
    ofLayers (site ++ [own]) = ofLayers [own] ↔
      (∀ n, site.findSome? (·.maxProperties) = some n → own.maxProperties = some n) ∧
      ∀ n, site.findSome? (·.minProperties) = some n → own.minProperties = some n := by
  have keeps (first own : Option Nat) :
      first.or own = own ↔ ∀ n, first = some n → own = some n := by
    cases first with
    | none => simp
    | some n => simp [eq_comm]
  rw [← keeps, ← keeps, ofLayers_eq, ofLayers_eq]
  constructor
  · intro same
    have := nonEmptyFormat_injective _ same
    simpa using this
  · rintro ⟨max, min⟩
    simp [max, min]

end ObjectFormat

namespace Converter

variable {c : Converter} {types : TypeStep} {id : TypeId} {v : Visibility} {site : List Constraints}
  {label : Option ClassRef} {object : ObjectSchema} {model : ModelType} {g g' : Gathered}

/-- An object has no bounds until it is the body of a class. -/
theorem format_of_objectBy (run : Yields (c.objectBy types id v) g object g') :
    ∃ model, c.graph.model? id = some model ∧ object.format = none := by
  unfold objectBy at run
  cases here : c.graph.model? id with
  | none =>
    rw [here] at run
    exact absurd run not_yields_throw
  | some model =>
    rw [here] at run
    obtain ⟨payload, _, -, run⟩ := yields_bind.mp run
    obtain ⟨props, _, -, run⟩ := yields_bind.mp run
    obtain ⟨additional, _, -, run⟩ := yields_bind.mp run
    refine ⟨model, rfl, ?_⟩
    cases discriminator : model.discriminator with
    | none =>
      simp only [discriminator, yields_pure] at run
      rw [← run.1]
    | some property =>
      simp only [discriminator] at run
      obtain ⟨variants, _, -, run⟩ := yields_bind.mp run
      rw [← (yields_pure.mp run).1]

/-- The schema of a class that was built where the constraints were `site`. -/
def BoundBy (c : Converter) (id : TypeId) (site : List Constraints) (s : Schema) : Prop :=
  ∃ model o, c.graph.model? id = some model ∧ s = .ofKind (.object o) ∧
    o.format = ObjectFormat.ofLayers (site ++ [model.constraints])

theorem boundBy_body (run : Yields (c.objectBy types id v) g object g') :
    c.BoundBy id site (c.body label id site object) := by
  obtain ⟨model, here, format⟩ := format_of_objectBy run
  refine ⟨model, _, here, rfl, ?_⟩
  simp [here, format, ObjectFormat.ofLayers]

/-- What is done at a class: the pass goes on, or it ends with an error of its own that says where
the class was met. -/
def probing : Option (List Constraints → ConvertError) → List Constraints → ConvertM Unit
  | none => fun _ => pure ()
  | some stop => fun site => throw (stop site)

end Converter

/-- A step from `g` on, next to those that end when they set out to build the object of a class.
Either the class is not met, and these steps come to the same, or they all end at one place, whose
constraints are in the bounds of what is stored for the class. -/
structure FirstFrom {α : Type} (c : Converter) (key : TypeId × Visibility) (g : Gathered)
    (p : α → Prop) (plain : Except ConvertError α × Gathered)
    (stopped : (List Constraints → ConvertError) → Except ConvertError α × Gathered) : Prop where
  within : Within g.classes plain.2.classes
  kept : 0 < g.classes.met key → plain.2.classes.bodyFor key = g.classes.bodyFor key
  known : ∀ a, plain.1 = .ok a → p a
  first : g.classes.met key = 0 →
    (plain.2.classes.met key = 0 ∧ ∀ stop, stopped stop = plain) ∨
    ∃ site, 0 < plain.2.classes.met key ∧ (∀ stop, (stopped stop).1 = .error (stop site)) ∧
      ∀ a, plain.1 = .ok a →
        ∃ s, plain.2.classes.bodyFor key = some s ∧ c.BoundBy key.1 site s

/-- A step that can be stopped where a class is met first. -/
def First (c : Converter) (key : TypeId × Visibility) {α : Type}
    (x : Option (List Constraints → ConvertError) → ConvertM α) (p : α → Prop) : Prop :=
  ∀ g, FirstFrom c key g p (outcome (x none) g) fun stop => outcome (x (some stop)) g

variable {c : Converter} {key : TypeId × Visibility} {α β : Type} {g : Gathered}
  {x : Option (List Constraints → ConvertError) → ConvertM α}
  {f : Option (List Constraints → ConvertError) → α → ConvertM β} {p : α → Prop} {q : β → Prop}

theorem outcome_bind_error {x : ConvertM α} {f : α → ConvertM β} {e : ConvertError}
    (failed : (outcome x g).1 = .error e) : (outcome (x >>= f) g).1 = .error e := by
  rw [outcome_bind]
  generalize outcome x g = run at failed
  obtain ⟨result, g₁⟩ := run
  cases failed
  rfl

theorem FirstFrom.bind
    (begun : FirstFrom c key g p (outcome (x none) g) fun stop => outcome (x (some stop)) g)
    (rest : ∀ a g₁, Within g.classes g₁.classes → p a →
      FirstFrom c key g₁ q (outcome (f none a) g₁) fun stop => outcome (f (some stop) a) g₁) :
    FirstFrom c key g q (outcome (x none >>= f none) g)
      fun stop => outcome (x (some stop) >>= f (some stop)) g := by
  rw [outcome_bind]
  generalize outcome (x none) g = plain at begun
  obtain ⟨result, g₁⟩ := plain
  cases result with
  | error e =>
    refine ⟨begun.within, begun.kept, (fun _ failed => by cases failed), fun unmet => ?_⟩
    rcases begun.first unmet with ⟨still, same⟩ | ⟨site, met, stopped, -⟩
    · refine .inl ⟨still, fun stop => ?_⟩
      rw [outcome_bind, same]
    · exact .inr ⟨site, met, fun stop => outcome_bind_error (stopped stop),
        fun _ failed => by cases failed⟩
  | ok a =>
    have done := rest a g₁ begun.within (begun.known a rfl)
    refine ⟨begun.within.trans done.within, fun met => ?_, done.known, fun unmet => ?_⟩
    · have still := Nat.lt_of_lt_of_le met (begun.within.met key)
      rw [done.kept still, begun.kept met]
    rcases begun.first unmet with ⟨still, same⟩ | ⟨site, met, stopped, bound⟩
    · rcases done.first still with ⟨still, same'⟩ | ⟨site, met, stopped, bound⟩
      · refine .inl ⟨still, fun stop => ?_⟩
        rw [outcome_bind, same]
        exact same' stop
      · refine .inr ⟨site, met, fun stop => ?_, bound⟩
        rw [outcome_bind, same]
        exact stopped stop
    · refine .inr ⟨site, Nat.lt_of_lt_of_le met (done.within.met key),
        fun stop => outcome_bind_error (stopped stop), fun _ _ => ?_⟩
      rw [done.kept met]
      exact bound a rfl

/-- Steps that are the same in all cases and leave the classes as they are. -/
theorem First.steady {x : ConvertM α} (steady : ∀ g, (outcome x g).2.classes = g.classes)
    (known : ∀ g a, (outcome x g).1 = .ok a → p a) : First c key (fun _ => x) p := by
  intro g
  refine ⟨?_, fun _ => ?_, known g, fun unmet => .inl ⟨?_, fun _ => rfl⟩⟩
  · rw [steady]
    exact .refl g.classes
  · rw [steady]
  · rwa [steady]

theorem first_throw {e : ConvertError} :
    First c key (fun _ => (MonadExcept.throw e : ConvertM α)) p :=
  .steady (fun _ => rfl) fun _ _ failed => by cases failed

theorem compositional_first (c : Converter) (key : TypeId × Visibility) :
    Compositional c (First c key) where
  pure known := .steady (fun _ => rfl) fun _ _ same => by cases same; exact known
  throw _ := first_throw
  report _ _ := .steady (fun _ => rfl) fun _ _ _ => trivial
  bind first rest := fun g => (first g).bind fun a g₁ _ known => rest a known g₁

/-- What is stored for one class makes no difference to another. -/
theorem build_first {other : TypeId × Visibility} {slot : Slot}
    {models : Option (List Constraints → ConvertError) → ModelStep}
    (known : ∀ id v site, First c key (fun i => models i id v site) fun _ => True)
    (here : g.classes.keys[slot]? = some other) (differ : other ≠ key) (site : List Constraints) :
    FirstFrom c key g (fun _ => True)
      (outcome (c.build (c.typesBy (models none)) slot other.1 other.2 site) g) fun stop =>
        outcome (c.build (c.typesBy (models (some stop))) slot other.1 other.2 site) g := by
  have object := (compositional_first c key).objectBy_of_stuck first_throw (known · other.2 ·)
    other.1 g
  apply FirstFrom.bind (x := fun i => c.objectBy (c.typesBy (models i)) other.1 other.2)
    (f := fun _ => c.keepBody slot other.1 site) object
  intro object g₁ grown _
  refine ⟨within_store, fun met => ?_, fun _ _ => trivial, fun unmet => .inl ⟨?_, fun _ => rfl⟩⟩
  · exact bodyFor_store_other (grown.key here) differ (known_of_met met)
  · exact met_store.trans unmet

section Build

variable {types : TypeStep} {slot : Slot} {id : TypeId} {v : Visibility} {site : List Constraints}
  (grown : Within g.classes (outcome (c.objectBy types id v) g).2.classes)
include grown

theorem within_build : Within g.classes (outcome (c.build types slot id v site) g).2.classes := by
  unfold build
  rw [outcome_bind]
  generalize outcome (c.objectBy types id v) g = run at grown
  obtain ⟨result, g₁⟩ := run
  cases result with
  | error e => exact grown
  | ok object => exact grown.trans within_store

/-- What is stored for the class itself has the bounds of the place of use. -/
theorem bodyFor_of_build {s : Schema} {g' : Gathered} (here : g.classes.slotFor (id, v) = slot)
    (met : 0 < g.classes.met (id, v)) (run : Yields (c.build types slot id v site) g s g') :
    g'.classes.bodyFor (id, v) = some s ∧ c.BoundBy id site s := by
  obtain ⟨object, g₁, built, run⟩ := yields_bind.mp run
  obtain ⟨_, g₂, stored, run⟩ := yields_bind.mp run
  obtain rfl := yields_store.mp stored
  obtain ⟨rfl, rfl⟩ := yields_pure.mp run
  rw [built] at grown
  refine ⟨?_, boundBy_body built⟩
  have same : g₁.classes.slotFor (id, v) = slot := by
    rw [grown.slotFor (known_of_met met), here]
  rw [← same]
  exact bodyFor_store_same (Nat.lt_of_lt_of_le met (grown.met _))

end Build

theorem FirstFrom.enter_other {plain : Except ConvertError α × Gathered}
    {stopped : (List Constraints → ConvertError) → Except ConvertError α × Gathered} {slot : Slot}
    {id : TypeId} {v : Visibility} {t : ClassTable}
    (entered : g.classes.enter id v = (slot, t)) (differ : key ≠ (id, v))
    (done : FirstFrom c key { g with classes := t } p plain stopped) :
    FirstFrom c key g p plain stopped := by
  have unmoved : t.met key = g.classes.met key := met_enter_other entered differ
  refine ⟨(within_enter entered).trans done.within, fun met => ?_, done.known, fun unmet => ?_⟩
  · rw [done.kept (unmoved ▸ met)]
    exact bodyFor_enter entered (known_of_met met)
  · exact done.first (unmoved.trans unmet)

theorem modelWatched_first (fuel : Nat) (id : TypeId) (v : Visibility) (site : List Constraints) :
    First c key (fun i => c.modelWatched key (probing i) fuel id v site) fun _ => True := by
  induction fuel generalizing id v site with
  | zero => exact first_throw
  | succ fuel ih =>
    intro g
    cases entered : g.classes.enter id v with | mk slot t => ?_
    have within := within_enter entered
    obtain ⟨same, once⟩ := met_enter entered
    by_cases met : 0 < g.classes.met (id, v)
    · simp only [outcome_of_met entered met]
      refine ⟨within, fun known => bodyFor_enter entered (known_of_met known), fun _ _ => trivial,
        fun unmet => .inl ⟨?_, fun _ => rfl⟩⟩
      have differ : key ≠ (id, v) := by
        rintro rfl
        omega
      rw [met_enter_other entered differ, unmet]
    have new := Nat.eq_zero_of_not_pos met
    simp only [outcome_of_new entered new]
    by_cases here : (id, v) = key
    · subst here
      have judgement := compositional_first c (id, v)
      have grown :=
        (judgement.objectBy_of_stuck first_throw (ih · v ·) id { g with classes := t }).within
      have known : 0 < t.met (id, v) := by omega
      simp only [if_true, probing, pure_bind]
      have further : Within t
          (outcome (c.build _ slot id v site) { g with classes := t }).2.classes :=
        within_build grown
      refine ⟨within.trans further, fun before => absurd before met, fun _ _ => trivial,
        fun _ => .inr ⟨site, Nat.lt_of_lt_of_le known (further.met _), fun stop => ?_,
          fun s done => ?_⟩⟩
      · exact outcome_bind_error rfl
      · exact ⟨s, bodyFor_of_build grown same known (Prod.ext done rfl)⟩
    · simp only [if_neg here, pure_bind]
      have apart : t.keys[slot]? = some (id, v) := (enter_spec entered).1
      exact (build_first ih apart here site).enter_other entered (Ne.symm here)

namespace Converter

/-- Where a pass meets a class first: it ends there if it is made to end where it sets out to build
the object of the class. -/
def FirstMet (c : Converter) (calls : List Call) (reports : Diagnostics)
    (key : TypeId × Visibility) (site : List Constraints) : Prop :=
  ∀ stop : List Constraints → ConvertError,
    let models := c.modelWatched key (fun site => throw (stop site)) (c.graph.types.size + 2)
    (outcome (calls.mapM (c.answerBy models)) ⟨{}, reports⟩).1 = .error (stop site)

variable {calls : List Call} {reports : Diagnostics} {trees : List (Option Tree)} {g : Gathered}

theorem answers_first (c : Converter) (calls : List Call) (key : TypeId × Visibility) :
    First c key (fun i => calls.mapM
      (c.answerBy (c.modelWatched key (probing i) (c.graph.types.size + 2)))) fun _ => True := by
  have judgement := compositional_first c key
  apply judgement.mapM
  intro call
  apply judgement.answerBy_of_stuck first_throw
  exact fun id v site => modelWatched_first _ id v site

/-- What is stored for a class has the bounds of the place where the class was met first. -/
theorem boundBy_first (run : Yields (c.answers calls) ⟨{}, reports⟩ trees g)
    (known : key ∈ g.classes.keys) : ∃ site s, c.FirstMet calls reports key site ∧
      g.classes.bodyFor key = some s ∧ c.BoundBy key.1 site s := by
  have plain : c.modelWatched key (probing none) (c.graph.types.size + 2) = c.models :=
    c.modelWatched_silent key _
  have run : outcome (calls.mapM c.answer) ⟨{}, reports⟩ = (.ok trees, g) := run
  have first := (answers_first c calls key ⟨{}, reports⟩).first rfl
  simp only [plain, ← answer_eq, run] at first
  have met : 0 < g.classes.met key := counted_of_answers run (keys_slotFor known)
  rcases first with ⟨unmet, -⟩ | ⟨site, -, stopped, bound⟩
  · omega
  · obtain ⟨s, stored, bound⟩ := bound trees rfl
    exact ⟨site, s, stopped, stored, bound⟩

/-- What is stored for a class has the bounds of the place where the class was met first, before
those of the model itself. They are the model's own only if that place sets no others. All the same
the definition that other places refer to has them. -/
theorem bounds_of_first_place (c : Converter) (calls : List Call) (reports : Diagnostics)
    {trees : List (Option Tree)} {g : Gathered}
    (run : Yields (c.answers calls) ⟨{}, reports⟩ trees g) {slot : Slot} {r : ClassRecord}
    (here : g.classes.record? slot = some r) :
    ∃ site model o, c.FirstMet calls reports (r.type, r.visibility) site ∧
      c.graph.model? r.type = some model ∧ r.body = some (.ofKind (.object o)) ∧
      o.format = ObjectFormat.ofLayers (site ++ [model.constraints]) ∧
      (o.format = ObjectFormat.ofLayers [model.constraints] ↔
        (∀ n, site.findSome? (·.maxProperties) = some n →
          model.constraints.maxProperties = some n) ∧
        ∀ n, site.findSome? (·.minProperties) = some n →
          model.constraints.minProperties = some n) ∧
      ∀ stage, 1 < r.count → ∃ name definition,
        (g.classes.finalize c.graph stage).nameOf slot = some name ∧
        (g.classes.finalize c.graph stage).definitions.get? name =
          some (.ofKind (.object definition)) ∧
        definition.format = o.format := by
  have key : g.classes.keys[slot]? = some (r.type, r.visibility) := by simp [keys_getElem?, here]
  have known := List.mem_of_getElem? key
  have alone : g.classes.slotFor (r.type, r.visibility) = slot :=
    ((accounts_of_answers run).distinct distinct_empty).slot_eq key (keys_slotFor known)
  obtain ⟨site, s, met, stored, model, o, declared, rfl, format⟩ := boundBy_first run known
  rw [bodyFor, alone] at stored
  refine ⟨site, model, o, met, declared, (body?_of_record? here).symm.trans stored, format,
    format ▸ ObjectFormat.ofLayers_eq_own_iff site model.constraints, fun stage shared => ?_⟩
  have twice : 1 < g.classes.count slot := by rwa [count_of_record? here]
  obtain ⟨name, named⟩ := nameOf_finalize c.graph stage twice
  refine ⟨name, o.resolve _, named, definitions_get? named stored, ?_⟩
  cases o
  rfl

/-- A shelf with two boxes, the first of which has bounds of its own. -/
def shelf : Converter where
  target := "Shelf"
  graph := {
    version := "1"
    types := .ofEntries [
      ("Box", .model { properties := .ofEntries [("size", { type := .named "int32" })] }),
      ("Shelf", .model {
        properties := .ofEntries [
          ("first", { type := .named "Box", constraints := { maxProperties := some 3 } }),
          ("second", { type := .named "Box" })] })] }

def shelfCalls : List Call := [.type (.named "Shelf") { visibility := .read } []]

/-- The definition of a box has the bounds of the first one. -/
theorem shelf_box_bound : ∃ trees g r, Yields (shelf.answers shelfCalls) ⟨{}, []⟩ trees g ∧
    g.classes.record? 1 = some r ∧ 1 < r.count ∧
    ∃ site model o, shelf.FirstMet shelfCalls [] (r.type, r.visibility) site ∧
      shelf.graph.model? r.type = some model ∧ r.body = some (.ofKind (.object o)) ∧
      o.format = ObjectFormat.ofLayers (site ++ [model.constraints]) := by
  obtain ⟨trees, g, r, run, here, shared⟩ : ∃ trees g r,
      Yields (shelf.answers shelfCalls) ⟨{}, []⟩ trees g ∧ g.classes.record? 1 = some r ∧
      1 < r.count := ⟨_, _, _, rfl, rfl, by decide⟩
  obtain ⟨site, model, o, met, declared, stored, format, -⟩ :=
    bounds_of_first_place shelf shelfCalls [] run here
  exact ⟨trees, g, r, run, here, shared, site, model, o, met, declared, stored, format⟩

/-- A box has no bounds of its own. -/
theorem shelf_box_not_own : ∃ trees g r model o,
    Yields (shelf.answers shelfCalls) ⟨{}, []⟩ trees g ∧ g.classes.record? 1 = some r ∧
    2 ≤ r.count ∧ shelf.graph.model? r.type = some model ∧
    r.body = some (.ofKind (.object o)) ∧
    o.format ≠ ObjectFormat.ofLayers [model.constraints] := by
  refine ⟨_, _, _, _, _, rfl, rfl, ?_, rfl, rfl, ?_⟩
  · decide
  · decide

end Converter
end WireSchema
