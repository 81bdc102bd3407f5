import WireSchema.Proofs.Watching

/-! Conversions end, and each class of a pass is built once. Between two models the chain of types
ends because the graph is grounded; models are built inside each other no deeper than there are
models that have not been met; and the variants of a model no deeper than there are models that have
not been looked at. -/
namespace WireSchema

open ConvertM Converter ClassTable

/-- A result, or a failure other than that of a conversion without end. -/
def Settled {α : Type} (p : α → Prop) : Except ConvertError α → Prop
  | .ok a => p a
  | .error e => e ≠ .endless

structure EndsFrom {α : Type} (g : Gathered) (p : α → Prop)
    (run : Except ConvertError α × Gathered) : Prop where
  within : Within g.classes run.2.classes
  settled : Settled p run.1

/-- The step ends if it is begun when the classes `opened` have been met. -/
def Ends (opened : List (TypeId × Visibility)) {α : Type} (x : Unit → ConvertM α)
    (p : α → Prop) : Prop :=
  ∀ g, (∀ key ∈ opened, 0 < g.classes.met key) → EndsFrom g p (outcome (x ()) g)

theorem Ends.bind {opened : List (TypeId × Visibility)} {α β : Type} {x : Unit → ConvertM α}
    {f : Unit → α → ConvertM β} {p : α → Prop} {q : β → Prop} (first : Ends opened x p)
    (rest : ∀ a, p a → Ends opened (fun i => f i a) q) :
    Ends opened (fun i => x i >>= f i) q := by
  intro g known
  have begun := first g known
  rw [outcome_bind]
  generalize outcome (x ()) g = run at begun
  obtain ⟨result, g₁⟩ := run
  cases result with
  | error e => exact ⟨begun.within, begun.settled⟩
  | ok a =>
    have still : ∀ key ∈ opened, 0 < g₁.classes.met key := fun key member =>
      Nat.lt_of_lt_of_le (known key member) (begun.within.met key)
    have done := rest a begun.settled g₁ still
    exact ⟨begun.within.trans done.within, done.settled⟩

theorem compositional_ends (c : Converter) (opened : List (TypeId × Visibility)) :
    Compositional c (Ends opened) where
  pure known := fun g _ => ⟨.refl g.classes, known⟩
  throw other := fun g _ => ⟨.refl g.classes, other⟩
  report _ _ := fun g _ => ⟨.refl g.classes, trivial⟩
  bind := Ends.bind

variable {c : Converter}

/-- The variants of a model are found before the fuel is out: on every level a model is looked at
that was not before. -/
theorem variantsWithin_ends {opened : List (TypeId × Visibility)} {types : Unit → TypeStep}
    {v : Visibility}
    (below : ∀ type ctx site, ctx.visibility = v →
      Ends opened (fun i => types i type ctx site) fun _ => True) {fuel n : Nat}
    {looked : List TypeId} (visited : c.graph.Visited n looked)
    (enough : c.graph.types.size < n + fuel) (host : TypeId) (property : String) :
    Ends opened (fun i => c.variantsWithin (types i) fuel host property v looked)
      fun found => c.graph.Visited n found.2 := by
  have judgement := compositional_ends c opened
  induction fuel generalizing n looked host property with
  | zero =>
    have := visited.le_size
    omega
  | succ fuel ih =>
    unfold variantsWithin
    cases c.graph.model? host with
    | none => exact judgement.pure visited
    | some model =>
      refine judgement.foldlM (fun state name known => ?_) model.derived visited
      apply judgement.addVariant below host property state name
        (p := c.graph.Visited n) (q := c.graph.Visited (n + 1)) known
      · exact fun id model here new => known.cons (TypeGraph.index_lt_of_model? here) new
      · exact fun looked further => further.weaken
      · exact fun host property looked further => ih further (by omega) host property

section Build

variable {opened : List (TypeId × Visibility)} {models : ModelStep} {v : Visibility} {id : TypeId}

theorem objectBy_ends (grounded : c.graph.Grounded)
    (known : ∀ id site, Ends opened (fun _ => models id v site) fun _ => True) :
    Ends opened (fun _ => c.objectBy (c.typesBy models) id v) fun _ => True := by
  have judgement := compositional_ends c opened
  have below (type : TypeRef) (ctx : Context) (site : List Constraints)
      (same : ctx.visibility = v) :
      Ends opened (fun _ => c.typesBy models type ctx site) fun _ => True :=
    judgement.typesWithin v known (grounded.ends type (by omega)) same site
  apply judgement.objectBy below id (p := fun found => c.graph.Visited 1 found.2)
  intro model property here
  have looked : c.graph.Visited 1 [id] :=
    .cons .nil (TypeGraph.index_lt_of_model? here) List.not_mem_nil
  exact variantsWithin_ends below looked (by omega) id property

theorem build_ends
    (object : Ends opened (fun _ => c.objectBy (c.typesBy models) id v) fun _ => True) (slot : Slot)
    (site : List Constraints) :
    Ends opened (fun _ => c.build (c.typesBy models) slot id v site) fun _ => True :=
  object.bind fun _ _ _ _ => ⟨within_store, trivial⟩

/-- Where there is no model there is nothing to build. -/
theorem objectBy_ends_of_none (missing : c.graph.model? id = none) :
    Ends opened (fun _ => c.objectBy (c.typesBy models) id v) fun _ => True := by
  unfold objectBy
  rw [missing]
  exact (compositional_ends c opened).throw (by simp)

end Build

/-- A model is converted before the fuel is out: the models that it is being built inside of have
been met, so that one more of them is met on every level. -/
theorem modelWithin_ends (grounded : c.graph.Grounded) {v : Visibility} {fuel n : Nat}
    {opened : List TypeId} (visited : c.graph.Visited n opened)
    (enough : c.graph.types.size < n + fuel) (id : TypeId) (site : List Constraints) :
    Ends (opened.map (·, v)) (fun _ => c.modelWithin fuel id v site) fun _ => True := by
  have short := visited.le_size
  induction fuel generalizing n opened id site with
  | zero => omega
  | succ fuel ih =>
    intro g known
    rw [← c.modelWatched_silent (id, v)]
    cases entered : g.classes.enter id v with | mk slot t => ?_
    have within := within_enter entered
    by_cases met : 0 < g.classes.met (id, v)
    · rw [outcome_of_met entered met]
      exact ⟨within, trivial⟩
    rw [outcome_of_new entered (Nat.eq_zero_of_not_pos met), ite_self, pure_bind,
      modelWatched_silent]
    have all : ∀ key ∈ (id :: opened).map (·, v), 0 < t.met key := by
      intro key member
      rcases List.mem_cons.mp member with rfl | member
      · rw [(met_enter entered).2]
        exact Nat.succ_pos _
      · exact Nat.lt_of_lt_of_le (known key member) (within.met key)
    have object : Ends ((id :: opened).map (·, v))
        (fun _ => c.objectBy (c.typesBy (c.modelWithin fuel)) id v) fun _ => True := by
      cases here : c.graph.model? id with
      | none => exact objectBy_ends_of_none here
      | some model =>
        have fresh : id ∉ opened := fun member => met (known _ (List.mem_map_of_mem member))
        have further := visited.cons (TypeGraph.index_lt_of_model? here) fresh
        apply objectBy_ends grounded
        exact fun next site => ih further (by omega) next site further.le_size
    have done := build_ends object slot site { g with classes := t } all
    exact ⟨within.trans done.within, done.settled⟩

/-- Whatever a pass has met before, a conversion ends. -/
theorem answer_ends (grounded : c.graph.Grounded) (call : Call) :
    Ends [] (fun _ => c.answer call) fun _ => True := by
  have judgement := compositional_ends c []
  have known (id : TypeId) (v : Visibility) (site : List Constraints) :
      Ends [] (fun _ => c.models id v site) fun _ => True :=
    modelWithin_ends grounded .nil (by omega) id site
  rw [c.answer_eq]
  apply judgement.answerBy call _ known
  intro type ctx site
  exact judgement.typesWithin ctx.visibility (fun id site => known id ctx.visibility site)
    (grounded.ends type (by omega)) rfl site

namespace Converter

def marking (mark : Diagnostic) (_ : List Constraints) : ConvertM Unit :=
  modify fun g => { g with diagnostics := g.diagnostics ++ [mark] }

/-- What is done at a class: it is marked, or the pass is an ordinary one. -/
def watching (mark : Diagnostic) : Bool → List Constraints → ConvertM Unit
  | true => marking mark
  | false => fun _ => pure ()

end Converter

/-- A marked step, from `g'` on, next to the ordinary one from `g` on. They come to the same, and
there is one more mark at most, and only if the class has been met meanwhile. -/
structure OnceFrom {α : Type} (key : TypeId × Visibility) (mark : Diagnostic) (g g' : Gathered)
    (p : α → Prop) (plain marked : Except ConvertError α × Gathered) : Prop where
  within : Within g.classes plain.2.classes
  result : marked.1 = plain.1
  classes : marked.2.classes = plain.2.classes
  marks : marked.2.diagnostics.count mark + min 1 (g.classes.met key) ≤
    g'.diagnostics.count mark + min 1 (plain.2.classes.met key)
  known : ∀ a, plain.1 = .ok a → p a

/-- A step that does not mark a class twice. -/
def Once (key : TypeId × Visibility) (mark : Diagnostic) {α : Type} (x : Bool → ConvertM α)
    (p : α → Prop) : Prop :=
  ∀ g g', g'.classes = g.classes →
    OnceFrom key mark g g' p (outcome (x false) g) (outcome (x true) g')

variable {key : TypeId × Visibility} {mark : Diagnostic}

theorem Once.bind {α β : Type} {x : Bool → ConvertM α} {f : Bool → α → ConvertM β} {p : α → Prop}
    {q : β → Prop} (first : Once key mark x p)
    (rest : ∀ a, p a → Once key mark (fun i => f i a) q) :
    Once key mark (fun i => x i >>= f i) q := by
  intro g g' same
  have begun := first g g' same
  rw [outcome_bind, outcome_bind]
  generalize outcome (x false) g = plain at begun
  generalize outcome (x true) g' = marked at begun
  obtain ⟨result, g₁⟩ := plain
  obtain ⟨result', g₁'⟩ := marked
  obtain rfl : result' = result := begun.result
  cases result' with
  | error e =>
    exact ⟨begun.within, rfl, begun.classes, begun.marks, fun a failed => by cases failed⟩
  | ok a =>
    have done := rest a (begun.known a rfl) g₁ g₁' begun.classes
    refine ⟨begun.within.trans done.within, done.result, done.classes, ?_, done.known⟩
    have early := begun.marks
    have late := done.marks
    simp only at early late ⊢
    omega

theorem Once.steady {α : Type} {x : Bool → ConvertM α} {p : α → Prop}
    {result : Except ConvertError α} {further : Diagnostics} (steps : ∀ i g, outcome (x i) g =
      (result, { g with diagnostics := g.diagnostics ++ further })) (unmarked : mark ∉ further)
    (known : ∀ a, result = .ok a → p a) : Once key mark x p := by
  intro g g' same
  rw [steps, steps]
  refine ⟨.refl g.classes, rfl, same, ?_, known⟩
  simp [List.count_eq_zero_of_not_mem unmarked]

theorem once_throw {α : Type} {p : α → Prop} {e : ConvertError} :
    Once key mark (fun _ => (MonadExcept.throw e : ConvertM α)) p := by
  have steps (i : Bool) (g : Gathered) : outcome (throw e : ConvertM α) g =
      (.error e, { g with diagnostics := g.diagnostics ++ [] }) := by simp [outcome_throw]
  exact .steady steps List.not_mem_nil fun b failed => by cases failed

theorem compositional_once (c : Converter) (foreign : mark.target ≠ c.target) :
    Compositional c (Once key mark) where
  pure := by
    intro α a p known
    have steps (i : Bool) (g : Gathered) : outcome (pure a : ConvertM α) g =
        (.ok a, { g with diagnostics := g.diagnostics ++ [] }) := by simp [outcome_pure]
    exact .steady steps List.not_mem_nil fun b same => by cases same; exact known
  throw _ := once_throw
  report code message := by
    refine .steady (fun _ _ => rfl) ?_ fun _ _ => trivial
    rw [List.mem_singleton]
    exact fun same => foreign (congrArg Diagnostic.target same)
  bind := Once.bind

theorem store_once {slot : Slot} {body : Schema} :
    Once key mark (fun _ => ConvertM.store slot body) fun _ => True := by
  intro g g' same
  have run (g : Gathered) : outcome (ConvertM.store slot body) g =
      (.ok (), { g with classes := g.classes.store slot body }) := rfl
  rw [run, run]
  refine ⟨within_store, rfl, congrArg (·.store slot body) same, ?_, fun _ _ => trivial⟩
  simp only [met_store, Nat.le_refl]

section Enter

variable {α : Type} {p : α → Prop} {plain marked : Except ConvertError α × Gathered}
  {g g' : Gathered} {slot : Slot} {id : TypeId} {v : Visibility} {t : ClassTable}

/-- The class is met from now on, so the mark that it gets is the last. -/
theorem OnceFrom.enter_same (entered : g.classes.enter id v = (slot, t))
    (new : g.classes.met (id, v) = 0)
    (done : OnceFrom (id, v) mark { g with classes := t }
      { classes := t, diagnostics := g'.diagnostics ++ [mark] } p plain marked) :
    OnceFrom (id, v) mark g g' p plain marked := by
  refine ⟨(within_enter entered).trans done.within, done.result, done.classes, ?_, done.known⟩
  have first := (met_enter entered).2
  have more := done.within.met (id, v)
  have marks := done.marks
  simp only [List.count_append, List.count_singleton_self] at marks first more ⊢
  omega

theorem OnceFrom.enter_other (entered : g.classes.enter id v = (slot, t)) (differ : key ≠ (id, v))
    (done : OnceFrom key mark { g with classes := t } { g' with classes := t } p plain marked) :
    OnceFrom key mark g g' p plain marked := by
  refine ⟨(within_enter entered).trans done.within, done.result, done.classes, ?_, done.known⟩
  have marks := done.marks
  simp only [met_enter_other entered differ] at marks ⊢
  exact marks

end Enter

theorem modelWatched_once (foreign : mark.target ≠ c.target) (fuel : Nat) (id : TypeId)
    (v : Visibility) (site : List Constraints) :
    Once key mark (fun i => c.modelWatched key (watching mark i) fuel id v site) fun _ => True := by
  have judgement : Compositional c (Once key mark) := compositional_once c foreign
  induction fuel generalizing id v site with
  | zero => exact once_throw
  | succ fuel ih =>
    intro g g' same
    cases entered : g.classes.enter id v with | mk slot t => ?_
    have entered' : g'.classes.enter id v = (slot, t) := by rw [same, entered]
    by_cases met : 0 < g.classes.met (id, v)
    · have within := within_enter entered
      rw [outcome_of_met entered met, outcome_of_met entered' (same ▸ met)]
      refine ⟨within, rfl, rfl, ?_, fun _ _ => trivial⟩
      have more := within.met key
      simp only
      omega
    have new := Nat.eq_zero_of_not_pos met
    have built : Once key mark
        (fun i => c.build (c.typesBy (c.modelWatched key (watching mark i) fuel)) slot id v site)
        fun _ => True :=
      judgement.bind (judgement.objectBy_of_stuck once_throw (ih · v ·) id) fun object _ =>
        judgement.map store_once
    rw [outcome_of_new entered new, outcome_of_new entered' (same ▸ new)]
    by_cases here : (id, v) = key
    · subst here
      have ordinary : outcome (watching mark false site) { g with classes := t } =
          (.ok (), { g with classes := t }) := rfl
      have marked : outcome (watching mark true site) { g' with classes := t } =
          (.ok (), { classes := t, diagnostics := g'.diagnostics ++ [mark] }) := rfl
      rw [if_pos rfl, if_pos rfl, outcome_bind, outcome_bind, ordinary, marked]
      exact .enter_same entered new (built _ _ rfl)
    · rw [if_neg here, if_neg here, pure_bind, pure_bind]
      exact .enter_other entered (Ne.symm here) (built _ _ rfl)

namespace Converter

/-- What the conversions of a pass come to if one that fails does not end it. -/
def outcomes (answer : Call → ConvertM (Option Tree)) :
    List Call → Gathered → List (Except ConvertError (Option Tree)) × Gathered
  | [], g => ([], g)
  | call :: rest, g =>
    let (result, g₁) := outcome (answer call) g
    let (results, g₂) := outcomes answer rest g₁
    (result :: results, g₂)

/-- The conversion that reports `mark` whenever it sets out to build the object of a class. -/
def answerMarking (c : Converter) (key : TypeId × Visibility) (mark : Diagnostic) :
    Call → ConvertM (Option Tree) :=
  c.answerBy (c.modelWatched key (marking mark) (c.graph.types.size + 2))

end Converter

theorem answer_once (foreign : mark.target ≠ c.target) (call : Call) {g g' : Gathered}
    (same : g'.classes = g.classes) :
    OnceFrom key mark g g' (fun _ => True) (outcome (c.answer call) g)
      (outcome (c.answerMarking key mark call) g') := by
  have both : Once key mark (fun i =>
      c.answerBy (c.modelWatched key (watching mark i) (c.graph.types.size + 2)) call)
      fun _ => True := by
    apply (compositional_once c foreign).answerBy_of_stuck once_throw
    exact fun id v site => modelWatched_once foreign _ id v site
  have ordinary : c.modelWatched key (watching mark false) (c.graph.types.size + 2) = c.models :=
    c.modelWatched_silent key _
  have here := both g g' same
  simp only [ordinary, ← answer_eq] at here
  exact here

/-- A pass that marks a class is the ordinary one but for the mark, of which there is one more at
most. -/
theorem outcomes_once (foreign : mark.target ≠ c.target) (calls : List Call) {g g' : Gathered}
    (same : g'.classes = g.classes) :
    (outcomes (c.answerMarking key mark) calls g').1 = (outcomes c.answer calls g).1 ∧
      (outcomes (c.answerMarking key mark) calls g').2.classes =
        (outcomes c.answer calls g).2.classes ∧
      (outcomes (c.answerMarking key mark) calls g').2.diagnostics.count mark +
          min 1 (g.classes.met key) ≤
        g'.diagnostics.count mark + min 1 ((outcomes c.answer calls g).2.classes.met key) := by
  induction calls generalizing g g' with
  | nil => simp [outcomes, same]
  | cons call rest ih =>
    have step : OnceFrom key mark g g' (fun _ => True) (outcome (c.answer call) g)
      (outcome (c.answerMarking key mark call) g') := answer_once foreign call same
    obtain ⟨results, classes, marks⟩ := ih step.classes
    have early := step.marks
    refine ⟨?_, classes, ?_⟩
    · simp only [outcomes]
      rw [step.result, results]
    · simp only [outcomes]
      omega

/-- The walks through a graph that a conversion does itself. None of them is endless, and how far
they may go at most makes no difference. -/
structure TypeGraph.WalksEnd (graph : TypeGraph) : Prop where
  variants : WellFounded fun variant type => graph.onlyVariant? type = some variant
  texts : ∀ type fuel, graph.types.size < fuel →
    graph.singleTextWithin fuel type = graph.singleText? type
  bases : ∀ id model, graph.model? id = some model → ∀ fuel, graph.types.size < fuel →
    graph.bases fuel [id] id = graph.bases (graph.types.size + 1) [id] id
  scalars : ∀ id fuel, graph.types.size < fuel →
    ScalarChain.follow graph fuel [] id = ScalarChain.ofDeclared graph id

theorem TypeGraph.Grounded.walksEnd {graph : TypeGraph} (grounded : graph.Grounded) :
    graph.WalksEnd where
  variants := grounded.wellFounded_onlyVariant
  texts type fuel enough := by
    have ends := grounded.ends type (Nat.lt_succ_self _)
    exact singleTextWithin_eq ends enough
  bases id model here fuel enough := by
    have visited : graph.Visited 1 [id] := .cons .nil (index_lt_of_model? here) List.not_mem_nil
    exact bases_eq visited (by omega) (by omega) id
  scalars id fuel enough := follow_eq .nil (by omega) (by omega) id

namespace Converter

/-- If every cycle of types passes through a model that is more than a map, a conversion ends,
whatever the pass has met before, and no conversions of a pass set out to build the object of one
class twice. -/
theorem ends_and_builds_once (c : Converter) (grounded : c.graph.Grounded) :
    (∀ call g, (outcome (c.answer call) g).1 ≠ .error .endless) ∧
    c.graph.WalksEnd ∧
    ∀ key mark, mark.target ≠ c.target → ∀ calls g,
      (outcomes (c.answerMarking key mark) calls g).1 = (outcomes c.answer calls g).1 ∧
      (outcomes (c.answerMarking key mark) calls g).2.classes =
        (outcomes c.answer calls g).2.classes ∧
      (outcomes (c.answerMarking key mark) calls g).2.diagnostics.count mark ≤
        g.diagnostics.count mark + 1 := by
  refine ⟨fun call g endless => ?_, grounded.walksEnd, fun key mark foreign calls g => ?_⟩
  · have settled := (answer_ends grounded call g (by simp)).settled
    rw [endless] at settled
    exact settled rfl
  · obtain ⟨results, classes, marks⟩ := @outcomes_once c key mark foreign calls g g rfl
    exact ⟨results, classes, by omega⟩

/-- Two models that are bases and derived models of each other, and are told apart by properties of
each other; arrays, maps, unions and property references lead back to them. -/
def tangle : Converter where
  target := "First"
  graph := {
    version := "1"
    types := .ofEntries [
      ("First", .model {
        base := some "Second"
        discriminator := some "kind"
        derived := ["Second", "First", "Leaf"]
        properties := .ofEntries [
          ("others", { type := .named "List" }), ("next", { type := .named "Second" })] }),
      ("Second", .model {
        base := some "First"
        discriminator := some "sort"
        derived := ["First", "Leaf"]
        properties := .ofEntries [
          ("kind", { type := .literal (.string "second") }),
          ("byName", { type := .named "Map" })] }),
      ("Leaf", .model {
        base := some "Second"
        properties := .ofEntries [
          ("kind", { type := .literal (.string "leaf") }),
          ("sort", { type := .literal (.string "leaf") })] }),
      ("List", .array { item := .named "Maybe" }),
      ("Map", .model { indexer := some (.named "Link") }),
      ("Link", .property { model := "First", property := "others" }),
      ("Maybe", .union { variants := [.named "First", .named "null"] })] }

/-- The second model is met twice, and built once. -/
theorem tangle_ends :
    let link : Call := .type (.named "Link") { visibility := .read } []
    let mark : Diagnostic := ⟨.unsupportedType, "", "Second"⟩
    let marked := (outcomes (tangle.answerMarking (⟨1⟩, .read) mark) [link, link] ⟨{}, []⟩).2
    tangle.graph.Grounded ∧ (outcome (tangle.answer link) ⟨{}, []⟩).1 ≠ .error .endless ∧
      marked.classes.met (⟨1⟩, .read) = 2 ∧ marked.diagnostics.count mark = 1 := by
  intro link mark marked
  have grounded : tangle.graph.Grounded := by decide
  have holds := tangle.ends_and_builds_once grounded
  have foreign : mark.target ≠ tangle.target := by decide
  have most := (holds.2.2 (⟨1⟩, .read) mark foreign [link, link] ⟨{}, []⟩).2.2
  have least : 1 ≤ marked.diagnostics.count mark := by decide +kernel
  exact ⟨grounded, holds.1 link _, by decide +kernel, Nat.le_antisymm most least⟩

end Converter
end WireSchema
