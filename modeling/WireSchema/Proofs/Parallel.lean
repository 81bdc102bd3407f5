import Mathlib.Data.List.Forall2
import WireSchema.Proofs.Run

/-! Two runs side by side. The second starts from a translation of the state that the first starts
from. They are parallel if they end alike: with related results or with one failure, and the second
in the translation of the state in which the first ends. -/
namespace WireSchema

/-- Related results, or one failure. -/
inductive Match {ε α β : Type} (R : α → β → Prop) : Except ε α → Except ε β → Prop
  | ok {a : α} {b : β} : R a b → Match R (.ok a) (.ok b)
  | error {e : ε} : Match R (.error e) (.error e)

namespace Match

variable {ε α β γ δ : Type} {R : α → β → Prop} {S : γ → δ → Prop} {x : Except ε α}
  {y : Except ε β} {f : α → Except ε γ} {f' : β → Except ε δ}

theorem bind (first : Match R x y) (rest : ∀ a b, R a b → Match S (f a) (f' b)) :
    Match S (x >>= f) (y >>= f') := by
  cases first with
  | ok related => exact rest _ _ related
  | error => exact .error

theorem mono {R' : α → β → Prop} (first : Match R x y) (weaker : ∀ a b, R a b → R' a b) :
    Match R' x y := by
  cases first with
  | ok related => exact .ok (weaker _ _ related)
  | error => exact .error

theorem refl (x : Except ε α) : Match Eq x x := by
  cases x with
  | error e => exact .error
  | ok a => exact .ok rfl

theorem eq {x y : Except ε α} (first : Match Eq x y) : x = y := by
  cases first with
  | ok same => rw [same]
  | error => rfl

theorem known (first : Match R x y) : Match (fun a b => R a b ∧ x = .ok a) x y := by
  cases first with
  | ok related => exact .ok ⟨related, rfl⟩
  | error => exact .error

theorem cases (first : Match R x y) : (∃ e, x = .error e ∧ y = .error e) ∨
    ∃ a b, x = .ok a ∧ y = .ok b ∧ R a b := by
  cases first with
  | ok related => exact .inr ⟨_, _, rfl, rfl, related⟩
  | error => exact .inl ⟨_, rfl, rfl⟩

theorem mapM {ι : Type} {f : ι → Except ε α} {f' : ι → Except ε β}
    (each : ∀ i, Match R (f i) (f' i)) (items : List ι) :
    Match (List.Forall₂ R) (items.mapM f) (items.mapM f') := by
  induction items with
  | nil => exact .ok .nil
  | cons i rest ih =>
    rw [List.mapM_cons, List.mapM_cons]
    exact (each i).bind fun a b here => ih.bind fun as bs there => .ok (.cons here there)

end Match

namespace ConvertM

/-- Two steps that end alike, where `t` translates the states. -/
structure Parallel {ε σ α β : Type} (t : σ → σ) (R : α → β → Prop) (x : ExceptT ε (StateM σ) α)
    (y : ExceptT ε (StateM σ) β) : Prop where
  results : ∀ g, Match R (outcome x g).1 (outcome y (t g)).1
  states : ∀ g, (outcome y (t g)).2 = t (outcome x g).2

namespace Parallel

section Steps

variable {ε σ α β γ δ ι : Type} {t : σ → σ} {R : α → β → Prop} {S : γ → δ → Prop}
  {x : ExceptT ε (StateM σ) α} {y : ExceptT ε (StateM σ) β} {f : α → ExceptT ε (StateM σ) γ}
  {f' : β → ExceptT ε (StateM σ) δ} {a : α} {b : β}

theorem pure (related : R a b) :
    Parallel t R (pure a : ExceptT ε (StateM σ) α) (pure b : ExceptT ε (StateM σ) β) :=
  ⟨fun _ => .ok related, fun _ => rfl⟩

theorem throw (e : ε) :
    Parallel t R (throw e : ExceptT ε (StateM σ) α) (throw e : ExceptT ε (StateM σ) β) :=
  ⟨fun _ => .error, fun _ => rfl⟩

theorem bind (first : Parallel t R x y) (rest : ∀ a b, R a b → Parallel t S (f a) (f' b)) :
    Parallel t S (x >>= f) (y >>= f') := by
  have both (g : σ) : Match S (outcome (x >>= f) g).1 (outcome (y >>= f') (t g)).1 ∧
      (outcome (y >>= f') (t g)).2 = t (outcome (x >>= f) g).2 := by
    have results := first.results g
    have states := first.states g
    rw [outcome_bind, outcome_bind]
    revert results states
    rcases outcome x g with ⟨result, g₁⟩
    rcases outcome y (t g) with ⟨result', g₁'⟩
    rintro (⟨related⟩ | _) rfl
    · exact ⟨(rest _ _ related).results g₁, (rest _ _ related).states g₁⟩
    · exact ⟨.error, rfl⟩
  exact ⟨fun g => (both g).1, fun g => (both g).2⟩

theorem andThen {x y : ExceptT ε (StateM σ) α} {f : α → ExceptT ε (StateM σ) γ}
    {f' : α → ExceptT ε (StateM σ) δ} (first : Parallel t Eq x y)
    (rest : ∀ a, Parallel t S (f a) (f' a)) : Parallel t S (x >>= f) (y >>= f') := by
  refine first.bind fun a a' same => ?_
  subst same
  exact rest a

theorem guard {p : Prop} [Decidable p] {x y : ExceptT ε (StateM σ) Unit}
    {f : Unit → ExceptT ε (StateM σ) γ} {f' : Unit → ExceptT ε (StateM σ) δ}
    (first : Parallel t Eq x y) (rest : Parallel t S (f ()) (f' ())) :
    Parallel t S (if p then x >>= f else f ()) (if p then y >>= f' else f' ()) := by
  split
  · exact first.andThen fun _ => rest
  · exact rest

/-- Where states are not translated and results are the same the steps are. -/
theorem eq {x y : ExceptT ε (StateM σ) α} (first : Parallel id Eq x y) (g : σ) :
    outcome y g = outcome x g :=
  Prod.ext (first.results g).eq.symm (first.states g)

theorem refl (x : ExceptT ε (StateM σ) α) : Parallel id Eq x x :=
  ⟨fun _ => .refl _, fun _ => rfl⟩

theorem foldlM {f : α → ι → ExceptT ε (StateM σ) α} {f' : β → ι → ExceptT ε (StateM σ) β}
    (each : ∀ a b i, R a b → Parallel t R (f a i) (f' b i)) (items : List ι) (start : R a b) :
    Parallel t R (items.foldlM f a) (items.foldlM f' b) := by
  induction items generalizing a b with
  | nil => exact pure start
  | cons i rest ih =>
    rw [List.foldlM_cons, List.foldlM_cons]
    exact (each a b i start).bind fun a' b' related => ih related

end Steps

variable {α β γ : Type} {R : α → β → Prop} {t : Gathered → Gathered}

theorem ofResolve {r : Except ResolveError α} {r' : Except ResolveError β}
    (results : Match R r r') : Parallel t R (ofResolve r) (ofResolve r') := by
  cases results with
  | ok related => exact pure related
  | error => exact throw _

theorem ofExcept {r : Except ConvertError α} {r' : Except ConvertError β}
    (results : Match R r r') :
    Parallel t R (MonadExcept.ofExcept r : ConvertM α) (MonadExcept.ofExcept r' : ConvertM β) := by
  cases results with
  | ok related => exact pure related
  | error => exact throw _

theorem keep {f : α → ConvertM (Option γ)} {f' : β → ConvertM (Option γ)} (form : α → β)
    (each : ∀ a, Parallel t Eq (f a) (f' (form a))) (items : List α) :
    Parallel t Eq (keep f items) (keep f' (items.map form)) := by
  induction items with
  | nil => exact pure rfl
  | cons a rest ih =>
    exact (each a).andThen fun b => ih.andThen fun bs => pure rfl

theorem keepSame {f f' : α → ConvertM (Option γ)} (each : ∀ a, Parallel t Eq (f a) (f' a))
    (items : List α) : Parallel t Eq (ConvertM.keep f items) (ConvertM.keep f' items) := by
  simpa using keep id each items

theorem forIn {ι : Type} {f f' : ι → ConvertM (ForInStep PUnit)}
    (each : ∀ i, Parallel t Eq (f i) (f' i)) (items : List ι) :
    Parallel t Eq (forIn items PUnit.unit fun i _ => f i)
      (forIn items PUnit.unit fun i _ => f' i) := by
  induction items with
  | nil => exact pure rfl
  | cons i rest ih =>
    rw [List.forIn_cons, List.forIn_cons]
    refine (each i).andThen fun next => ?_
    cases next with
    | done => exact pure rfl
    | yield => exact ih

end Parallel
end ConvertM

section Renumber

variable (ρ : TypeId → TypeId)

def ClassRecord.renumber (r : ClassRecord) : ClassRecord := { r with type := ρ r.type }

def ClassTable.renumber (t : ClassTable) : ClassTable := ⟨t.records.map (·.renumber ρ)⟩

def Gathered.renumber (g : Gathered) : Gathered := { g with classes := g.classes.renumber ρ }

end Renumber

theorem Gathered.renumber_id : Gathered.renumber id = id := by
  funext g
  have same : ClassRecord.renumber id = id := rfl
  simp [Gathered.renumber, ClassTable.renumber, same]

namespace ClassTable

variable {ρ : TypeId → TypeId} (t : ClassTable) (slot : Slot)

theorem record?_renumber :
    (t.renumber ρ).record? slot = (t.record? slot).map (·.renumber ρ) := by
  simp [renumber, record?]

theorem count_renumber : (t.renumber ρ).count slot = t.count slot := by
  rw [count, record?_renumber, Option.map_map]
  rfl

theorem update_renumber {f f' : ClassRecord → ClassRecord}
    (commutes : ∀ r, f' (r.renumber ρ) = (f r).renumber ρ) :
    (t.renumber ρ).update slot f' = (t.update slot f).renumber ρ := by
  simp only [renumber, update, mk.injEq]
  refine List.ext_getElem? fun i => ?_
  simp only [List.getElem?_modify, List.getElem?_map]
  cases t.records[i]? with
  | none => simp
  | some r => split <;> simp [commutes]

theorem slotOf_renumber (injective : Function.Injective ρ) (type : TypeId) (v : Visibility) :
    (t.renumber ρ).slotOf (ρ type) v =
      ((t.slotOf type v).1, (t.slotOf type v).2.renumber ρ) := by
  have found : (t.renumber ρ).records.findIdx? (·.isFor (ρ type) v) =
      t.records.findIdx? (·.isFor type v) := by
    simp only [renumber, List.findIdx?_map]
    congr 1
    funext r
    simp [ClassRecord.isFor, ClassRecord.renumber, injective.eq_iff]
  unfold slotOf
  rw [found]
  split
  · rfl
  · simp [renumber, ClassRecord.renumber]

theorem enter_renumber (injective : Function.Injective ρ) (type : TypeId) (v : Visibility) :
    (t.renumber ρ).enter (ρ type) v = ((t.enter type v).1, (t.enter type v).2.renumber ρ) := by
  simp only [enter, slotOf_renumber t injective]
  exact congrArg _ (update_renumber _ _ fun r => rfl)

theorem nameOf_renumber : (t.renumber ρ).nameOf = t.nameOf := by
  funext slot
  rw [nameOf, nameOf, record?_renumber]
  cases t.record? slot <;> rfl

theorem definitions_renumber : (t.renumber ρ).definitions = t.definitions := by
  have defined : (t.renumber ρ).definition? ∘ ClassRecord.renumber ρ = t.definition? := by
    funext r
    unfold definition?
    rw [nameOf_renumber]
    rfl
  unfold definitions
  rw [renumber, List.filterMap_map, ← renumber, defined]

end ClassTable

namespace ConvertM.Parallel

variable {ρ : TypeId → TypeId}

theorem report {c c' : Converter} (same : c'.target = c.target) (code : DiagnosticCode)
    (message : String) :
    Parallel (Gathered.renumber ρ) Eq (c.report code message) (c'.report code message) := by
  refine ⟨fun g => .ok rfl, fun g => ?_⟩
  change Gathered.mk _ (Diagnostics.report _ _ c'.target _) = _
  rw [same]
  rfl

theorem visit (injective : Function.Injective ρ) (type : TypeId) (v : Visibility) :
    Parallel (Gathered.renumber ρ) Eq (visit type v) (visit (ρ type) v) := by
  have run (type : TypeId) (g : Gathered) : outcome (ConvertM.visit type v) g =
      (.ok ((g.classes.enter type v).1,
          (g.classes.enter type v).2.count (g.classes.enter type v).1),
        { g with classes := (g.classes.enter type v).2 }) := rfl
  have entered (g : Gathered) := g.classes.enter_renumber injective type v
  refine ⟨fun g => ?_, fun g => ?_⟩
  · simp only [run, Gathered.renumber, entered, ClassTable.count_renumber]
    exact .ok rfl
  · simp only [run, Gathered.renumber, entered]

theorem store (slot : Slot) (body : Schema) :
    Parallel (Gathered.renumber ρ) Eq (store slot body) (store slot body) := by
  refine ⟨fun g => .ok rfl, fun g => ?_⟩
  have stored : (g.classes.renumber ρ).store slot body = (g.classes.store slot body).renumber ρ :=
    ClassTable.update_renumber _ _ fun _ => rfl
  change { g with classes := (g.classes.renumber ρ).store slot body } = _
  rw [stored]
  rfl

end ConvertM.Parallel
end WireSchema
