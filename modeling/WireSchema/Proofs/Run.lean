import WireSchema.Convert

/-! Conversions that succeed, taken apart into the steps that they consist of. Steps that only
report give the same from every state. What is known of the results of steps is known of those of a
sequence. -/
namespace WireSchema.ConvertM

section Run

variable {ε σ α β : Type}

/-- What a step comes to if it starts with `g`. -/
def outcome (x : ExceptT ε (StateM σ) α) (g : σ) : Except ε α × σ := x.run g

variable {x : ExceptT ε (StateM σ) α} {f : α → ExceptT ε (StateM σ) β} {g g' : σ} {a b : α}

theorem outcome_pure : outcome (pure a : ExceptT ε (StateM σ) α) g = (.ok a, g) := rfl

theorem outcome_throw {e : ε} : outcome (throw e : ExceptT ε (StateM σ) α) g = (.error e, g) := rfl

theorem outcome_bind : outcome (x >>= f) g =
    match outcome x g with
    | (.ok a, g₁) => outcome (f a) g₁
    | (.error e, g₁) => (.error e, g₁) := by
  simp only [outcome, bind, ExceptT.bind, ExceptT.run, ExceptT.mk, StateT.bind, ExceptT.bindCont]
  cases x g with
  | mk result g₁ => cases result <;> rfl

/-- A step that gives `a` and leaves `g'` behind if it starts with `g`. -/
def Yields (x : ExceptT ε (StateM σ) α) (g : σ) (a : α) (g' : σ) : Prop :=
  outcome x g = (.ok a, g')

@[simp] theorem yields_pure :
    Yields (pure a : ExceptT ε (StateM σ) α) g b g' ↔ a = b ∧ g = g' := by
  simp [Yields, outcome_pure]

theorem yields_bind {b : β} :
    Yields (x >>= f) g b g' ↔ ∃ a g₁, Yields x g a g₁ ∧ Yields (f a) g₁ b g' := by
  unfold Yields
  rw [outcome_bind]
  rcases outcome x g with ⟨_ | _, _⟩ <;> simp [and_assoc]

@[simp] theorem not_yields_throw {e : ε} :
    ¬ Yields (throw e : ExceptT ε (StateM σ) α) g a g' := by
  simp [Yields, outcome_throw]

/-- Whether a step succeeds can be evaluated. -/
theorem exists_yields (succeeds : (outcome x g).1.toBool) : ∃ a g', Yields x g a g' := by
  cases ran : outcome x g with
  | mk result g' =>
    rw [ran] at succeeds
    cases result with
    | error e => cases succeeds
    | ok a => exact ⟨a, g', ran⟩

/-- Besides, what it gives can be tested. -/
theorem exists_yields_of {p : α → Prop} [DecidablePred p]
    (holds : (outcome x g).1.toOption.any fun a => decide (p a)) :
    ∃ a g', Yields x g a g' ∧ p a := by
  cases ran : outcome x g with
  | mk result g' =>
    rw [ran] at holds
    cases result with
    | error e => cases holds
    | ok a => exact ⟨a, g', ran, by simpa [Except.toOption] using holds⟩

end Run

variable {α β : Type} {x : ConvertM α} {f : α → ConvertM β} {g g' : Gathered} {a b : α}

@[simp] theorem yields_ofResolve {r : Except ResolveError α} :
    Yields (ofResolve r) g a g' ↔ r = .ok a ∧ g = g' := by
  cases r <;> simp [ofResolve]

@[simp] theorem yields_ofExcept {r : Except ConvertError α} :
    Yields (MonadExcept.ofExcept r : ConvertM α) g a g' ↔ r = .ok a ∧ g = g' := by
  cases r <;> simp [MonadExcept.ofExcept]

theorem yields_visit {id : TypeId} {v : Visibility} {slot : Slot} {n : Nat} :
    Yields (visit id v) g (slot, n) g' ↔ ∃ t, g.classes.enter id v = (slot, t) ∧
      t.count slot = n ∧ g' = { g with classes := t } := by
  have run : outcome (visit id v) g =
      (.ok ((g.classes.enter id v).1, (g.classes.enter id v).2.count (g.classes.enter id v).1),
        { g with classes := (g.classes.enter id v).2 }) := rfl
  unfold Yields
  rw [run]
  cases g.classes.enter id v
  simp only [Prod.mk.injEq, Except.ok.injEq]
  constructor
  · rintro ⟨⟨rfl, rfl⟩, rfl⟩
    exact ⟨_, ⟨rfl, rfl⟩, rfl, rfl⟩
  · rintro ⟨_, ⟨rfl, rfl⟩, rfl, rfl⟩
    exact ⟨⟨rfl, rfl⟩, rfl⟩

theorem yields_store {slot : Slot} {body : Schema} {u : Unit} :
    Yields (store slot body) g u g' ↔
      g' = { g with classes := g.classes.store slot body } := by
  have run : outcome (store slot body) g =
      (.ok (), { g with classes := g.classes.store slot body }) := rfl
  simp [Yields, run, eq_comm]

/-- A step that comes to the same from every state and does nothing there but report. -/
def Reports (x : ConvertM α) : Prop :=
  ∃ result reports, ∀ g, outcome x g =
    (result, { g with diagnostics := g.diagnostics ++ reports })

theorem Reports.pure (a : α) : Reports (pure a) :=
  ⟨.ok a, [], fun g => by simp [outcome_pure]⟩

theorem Reports.throw (e : ConvertError) : Reports (throw e : ConvertM α) :=
  ⟨.error e, [], fun g => by simp [outcome_throw]⟩

theorem Reports.ofExcept (r : Except ConvertError α) :
    Reports (MonadExcept.ofExcept r : ConvertM α) := by
  cases r with
  | error e => exact .throw e
  | ok a => exact .pure a

theorem Reports.report (c : Converter) (code : DiagnosticCode) (message : String) :
    Reports (c.report code message) := ⟨.ok (), [⟨code, message, c.target⟩], fun _ => rfl⟩

theorem Reports.bind (first : Reports x) (rest : ∀ a, Reports (f a)) : Reports (x >>= f) := by
  obtain ⟨result, reports, hx⟩ := first
  cases result with
  | error e => exact ⟨.error e, reports, fun g => by simp [outcome_bind, hx]⟩
  | ok a =>
    obtain ⟨result, further, hf⟩ := rest a
    exact ⟨result, reports ++ further, fun g => by simp [outcome_bind, hx, hf]⟩

theorem Reports.forIn {ι : Type} {step : ι → ConvertM (ForInStep PUnit)}
    (each : ∀ i, Reports (step i)) (items : List ι) :
    Reports (forIn items PUnit.unit fun i _ => step i) := by
  induction items with
  | nil => exact .pure _
  | cons i rest ih =>
    rw [List.forIn_cons]
    refine (each i).bind fun next => ?_
    cases next with
    | done => exact .pure _
    | yield => exact ih

/-- Such a step leaves the classes alone and can be repeated anywhere. -/
theorem Reports.yields (steady : Reports x) (run : Yields x g a g') :
    g'.classes = g.classes ∧
      ∀ g₀, ∃ reports, Yields x g₀ a { g₀ with diagnostics := g₀.diagnostics ++ reports } := by
  obtain ⟨result, reports, hx⟩ := steady
  have here := hx g
  rw [run] at here
  obtain ⟨rfl, rfl⟩ := Prod.mk.inj here
  exact ⟨rfl, fun g₀ => ⟨reports, hx g₀⟩⟩

/-- A step that gives `a` from every state and does nothing there but make the reports. -/
def Always (x : ConvertM α) (a : α) (reports : Diagnostics) : Prop :=
  ∀ g, Yields x g a { g with diagnostics := g.diagnostics ++ reports }

theorem Always.pure (a : α) : Always (pure a) a [] := fun g => by simp

theorem Always.report (c : Converter) (code : DiagnosticCode) (message : String) :
    Always (c.report code message) () [⟨code, message, c.target⟩] := fun _ => rfl

theorem Always.bind {reports further : Diagnostics} {b : β} (first : Always x a reports)
    (rest : Always (f a) b further) : Always (x >>= f) b (reports ++ further) := by
  intro g
  rw [← List.append_assoc]
  exact yields_bind.mpr ⟨a, _, first g, rest _⟩

theorem Always.map {reports : Diagnostics} (first : Always x a reports) (h : α → β) :
    Always (x >>= fun a => Pure.pure (h a)) (h a) reports :=
  fun g => yields_bind.mpr ⟨a, _, first g, yields_pure.mpr ⟨rfl, rfl⟩⟩

theorem Always.forIn {ι : Type} {step : ι → ConvertM (ForInStep PUnit)} {reports : ι → Diagnostics}
    (each : ∀ i, Always (step i) (.yield ()) (reports i)) (items : List ι) :
    Always (forIn items PUnit.unit fun i _ => step i) () (items.flatMap reports) := by
  induction items with
  | nil => exact .pure ()
  | cons i rest ih =>
    rw [List.forIn_cons, List.flatMap_cons]
    exact (each i).bind ih

theorem Always.unique {reports : Diagnostics} (always : Always x a reports)
    (run : Yields x g b g') :
    b = a ∧ g' = { g with diagnostics := g.diagnostics ++ reports } := by
  obtain ⟨same, rest⟩ := Prod.mk.inj (run.symm.trans (always g))
  exact ⟨Except.ok.inj same, rest⟩

/-- Before such a step or without it, the rest starts with the same classes. -/
theorem Reports.yields_guard {p : Prop} [Decidable p] {y : ConvertM Unit} {f : Unit → ConvertM β}
    {b : β} (first : Reports y) (run : Yields (if p then y >>= f else f ()) g b g') :
    ∃ g₁, g₁.classes = g.classes ∧ Yields (f ()) g₁ b g' := by
  split at run
  · obtain ⟨_, g₁, here, rest⟩ := yields_bind.mp run
    exact ⟨g₁, (first.yields here).1, rest⟩
  · exact ⟨g, rfl, run⟩

/-- A check that throws has been passed. -/
theorem yields_unless {p : Prop} [Decidable p] {e : ConvertError} {f : Unit → ConvertM β} {b : β} :
    Yields (if p then throw e >>= f else f ()) g b g' ↔ ¬ p ∧ Yields (f ()) g b g' := by
  by_cases now : p
  · simp [now]
  · simp [now]

/-- What a step gives if it gives anything. -/
structure Gives {α : Type} (x : ConvertM α) (q : α → Prop) : Prop where
  known : ∀ g a g', Yields x g a g' → q a

namespace Gives

variable {α β : Type} {x : ConvertM α} {f : α → ConvertM β} {p : α → Prop} {q : β → Prop} {a : α}

theorem pure (known : p a) : Gives (pure a) p := by
  refine ⟨fun g b g' run => ?_⟩
  obtain ⟨rfl, -⟩ := yields_pure.mp run
  exact known

theorem throw {e : ConvertError} : Gives (throw e) p :=
  ⟨fun _ _ _ run => absurd run not_yields_throw⟩

theorem bind (first : Gives x p) (rest : ∀ a, p a → Gives (f a) q) : Gives (x >>= f) q := by
  refine ⟨fun g b g' run => ?_⟩
  obtain ⟨a, g₁, here, run⟩ := yields_bind.mp run
  exact (rest a (first.known g a g₁ here)).known g₁ b g' run

theorem ofResolve {r : Except ResolveError α} : Gives (ofResolve r) fun a => r = .ok a :=
  ⟨fun _ _ _ run => (yields_ofResolve.mp run).1⟩

theorem any : Gives x fun _ => True := ⟨fun _ _ _ _ => trivial⟩

theorem guard {now : Prop} [Decidable now] {y : ConvertM Unit} {f : Unit → ConvertM β}
    (rest : Gives (f ()) q) : Gives (if now then y >>= f else f ()) q := by
  split
  · exact any.bind fun _ _ => rest
  · exact rest

theorem foldlM {f : α → β → ConvertM α} (each : ∀ a b, p a → Gives (f a b) p) (items : List β)
    (start : p a) : Gives (items.foldlM f a) p := by
  induction items generalizing a with
  | nil => exact .pure start
  | cons b rest ih => exact (each a b start).bind fun _ known => ih known

/-- What is known of an item when its step has succeeded is known of all when the loop has. -/
theorem foldlM_each {f : α → β → ConvertM α} (each : ∀ a b, Gives (f a b) fun _ => q b)
    (items : List β) : Gives (items.foldlM f a) fun _ => ∀ b ∈ items, q b := by
  induction items generalizing a with
  | nil => exact .pure (by simp)
  | cons b rest ih =>
    refine (each a b).bind fun a' here => ⟨fun g a'' g' run => ?_⟩
    exact List.forall_mem_cons.mpr ⟨here, ih.known g a'' g' run⟩

end Gives

end WireSchema.ConvertM
