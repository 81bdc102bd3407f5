import WireSchema.Proofs.Inheritance
import WireSchema.Proofs.Walks

/-! The chain of a model's bases, and when there is none. The walk from base to base stops at a
model without base, at a base that was passed before, or at a name that stands for no model; the
first two end the chain, and the last is a failure. No walk is longer than the list of
declarations. -/
namespace WireSchema.TypeGraph

variable {graph : TypeGraph} {id start last : TypeId} {passed path path' chain : List TypeId}
  {e : ResolveError}

abbrev HasBase (graph : TypeGraph) (id base : TypeId) : Prop := graph.IsBase base id

/-- A walk from a model to its base, to the base of that one, and so on. -/
abbrev BaseWalk (graph : TypeGraph) (start : TypeId) (path : List TypeId) : Prop :=
  Walk graph.HasBase start path

/-- There is no base, or only one that was passed. -/
def EndsAt (graph : TypeGraph) (path : List TypeId) (last : TypeId) : Prop :=
  (graph.model? last).bind (·.base) = none ∨ ∃ base ∈ path, graph.IsBase base last

/-- A base is named, but the name stands for no model. -/
def FailsAt (graph : TypeGraph) (last : TypeId) (e : ResolveError) : Prop :=
  ∃ name, (graph.model? last).bind (·.base) = some name ∧ graph.modelNamed name = .error e

theorem FailsAt.no_base {base : TypeId} (fails : graph.FailsAt last e) :
    ¬ graph.IsBase base last := by
  obtain ⟨name, named, missing⟩ := fails
  rintro ⟨name', model, named', found⟩
  obtain rfl := Option.some.inj (named.symm.trans named')
  rw [found] at missing
  cases missing

theorem FailsAt.unique {e' : ResolveError} (fails : graph.FailsAt last e)
    (other : graph.FailsAt last e') : e = e' := by
  obtain ⟨name, named, missing⟩ := fails
  obtain ⟨name', named', missing'⟩ := other
  obtain rfl := Option.some.inj (named.symm.trans named')
  exact Except.error.inj (missing.symm.trans missing')

theorem FailsAt.stuck (fails : graph.FailsAt last e) (ends : path.getLast? = some last) :
    Walk.Stuck graph.HasBase path := by
  intro last' ends' base isBase
  obtain rfl := Option.some.inj (ends.symm.trans ends')
  exact absurd isBase fails.no_base

theorem EndsAt.stuck (stops : graph.EndsAt chain last) (starts : chain.head? = some last) :
    Walk.Stuck graph.HasBase chain.reverse := by
  intro last' ends base isBase
  rw [List.getLast?_reverse, starts] at ends
  obtain rfl := Option.some.inj ends
  rcases stops with root | ⟨known, passed, isBase'⟩
  · obtain ⟨name, model, named, -⟩ := isBase
    rw [root] at named
    cases named
  · exact List.mem_reverse.mpr (isBase'.unique isBase ▸ passed)

theorem EndsAt.not_fails (stops : graph.EndsAt path last) : ¬ graph.FailsAt last e := by
  intro fails
  rcases stops with root | ⟨base, -, isBase⟩
  · obtain ⟨name, named, -⟩ := fails
    rw [root] at named
    cases named
  · exact fails.no_base isBase

/-- What the rest of a walk comes to that has come along `before`: more bases up to an end, or the
failure of some walk. -/
inductive Walked (graph : TypeGraph) (start : TypeId) (before : List TypeId) :
    Except ResolveError (List TypeId) → Prop
  | ends {bases : List TypeId} {last : TypeId} :
      graph.BaseWalk start (before ++ bases) → (before ++ bases).getLast? = some last →
      graph.EndsAt (before ++ bases) last → Walked graph start before (.ok bases)
  | fails {path : List TypeId} {last : TypeId} {e : ResolveError} :
      graph.BaseWalk start path → path.getLast? = some last → graph.FailsAt last e →
      Walked graph start before (.error e)

/-- The models that were passed are different ones, so the walk is over before the fuel is. -/
theorem bases_walked {n fuel : Nat} (walk : graph.BaseWalk start (id :: passed).reverse)
    (visited : graph.Visited n passed) (enough : graph.types.size < n + fuel) :
    graph.Walked start (id :: passed).reverse (graph.bases fuel (id :: passed) id) := by
  have short := visited.le_size
  induction fuel generalizing n passed id with
  | zero => omega
  | succ fuel ih =>
    have here : (id :: passed).reverse.getLast? = some id := by simp
    unfold bases
    cases named : (graph.model? id).bind (·.base) with
    | none => exact .ends (by simpa using walk) (by simp) (.inl named)
    | some name =>
      simp only
      cases found : graph.modelNamed name with
      | error e => exact .fails walk here ⟨name, named, found⟩
      | ok base =>
        obtain ⟨base, model⟩ := base
        have isBase : graph.IsBase base id := ⟨name, model, named, found⟩
        simp only [bind, Except.bind]
        split
        · rename_i old
          have known : base ∈ (id :: passed).reverse ++ [] := by simpa [or_comm] using old
          exact .ends (by simpa using walk) (by simp) (.inr ⟨base, known, isBase⟩)
        · rename_i new
          have new : base ∉ (id :: passed).reverse := by simpa [and_comm] using new
          obtain ⟨own, isModel, -⟩ := Option.bind_eq_some_iff.mp named
          have fresh : id ∉ passed :=
            (List.nodup_cons.mp (List.nodup_reverse.mp walk.distinct)).1
          have visited' := visited.cons (index_lt_of_model? isModel) fresh
          have walk' : graph.BaseWalk start (base :: id :: passed).reverse := by
            rw [List.reverse_cons]
            exact walk.extend here isBase new
          have walked := ih walk' visited' (by omega) visited'.le_size
          cases rest : graph.bases fuel (base :: id :: passed) base with
          | error e =>
            rw [rest] at walked
            cases walked with
            | fails walk'' ends fails => exact .fails walk'' ends fails
          | ok bases =>
            rw [rest] at walked
            cases walked with
            | ends walk'' ends stops =>
              rw [List.reverse_cons, List.append_assoc] at walk'' ends stops
              exact .ends walk'' ends stops

theorem baseWalk_reverse_iff : graph.BaseWalk id chain.reverse ↔
    chain.Nodup ∧ chain.getLast? = some id ∧ chain.IsChain graph.IsBase := by
  constructor
  · rintro ⟨starts, steps, distinct⟩
    exact ⟨List.nodup_reverse.mp distinct, by simpa using starts, List.isChain_reverse.mp steps⟩
  · rintro ⟨distinct, ends, steps⟩
    exact ⟨by simpa using ends, List.isChain_reverse.mpr steps, List.nodup_reverse.mpr distinct⟩

/-- The chain is a walk that has come to an end, or some walk has failed. -/
theorem ancestry_walked (graph : TypeGraph) (id : TypeId) :
    (∃ chain first, graph.ancestry id = .ok chain ∧ graph.BaseWalk id chain.reverse ∧
      chain.head? = some first ∧ graph.EndsAt chain first) ∨
    ∃ e path last, graph.ancestry id = .error e ∧ graph.BaseWalk id path ∧
      path.getLast? = some last ∧ graph.FailsAt last e := by
  have walked : graph.Walked id [id] (graph.bases (graph.types.size + 1) [id] id) :=
    bases_walked (.single _ id) .nil (by omega)
  unfold ancestry
  cases run : graph.bases (graph.types.size + 1) [id] id with
  | error e =>
    rw [run] at walked
    cases walked with
    | fails walk ends fails => exact .inr ⟨e, _, _, rfl, walk, ends, fails⟩
  | ok bases =>
    rw [run] at walked
    cases walked with
    | @ends _ last walk ends stops =>
      refine .inl ⟨_, last, rfl, by simpa using walk, ?_, ?_⟩
      · rw [List.head?_reverse]
        exact ends
      · exact stops.imp_right fun ⟨base, passed, isBase⟩ =>
          ⟨base, List.mem_reverse.mpr passed, isBase⟩

/-- There is one walk only, as far as it goes. -/
theorem BaseWalk.unique (walk : graph.BaseWalk id path) (other : graph.BaseWalk id path')
    (stuck : Walk.Stuck graph.HasBase path)
    (stuck' : Walk.Stuck graph.HasBase path') : path = path' :=
  Walk.unique (fun _ _ _ one two => one.unique two) walk other stuck stuck'

/-- The walk does not end in one way and fail in another. -/
theorem not_ends_and_fails (walk : graph.BaseWalk id chain.reverse)
    (starts : chain.head? = some start) (stops : graph.EndsAt chain start)
    (other : graph.BaseWalk id path) (ends : path.getLast? = some last) :
    ¬ graph.FailsAt last e := by
  intro fails
  obtain rfl := walk.unique other (stops.stuck starts) (fails.stuck ends)
  rw [List.getLast?_reverse, starts] at ends
  obtain rfl := Option.some.inj ends
  exact stops.not_fails fails

theorem bases_of_enough {fuel fuel' : Nat} (enough : graph.types.size < fuel)
    (enough' : graph.types.size < fuel') :
    graph.bases fuel [id] id = graph.bases fuel' [id] id := by
  cases isModel : graph.model? id with
  | none =>
    obtain ⟨k, rfl⟩ := Nat.exists_eq_add_of_lt enough
    obtain ⟨k', rfl⟩ := Nat.exists_eq_add_of_lt enough'
    simp [bases, isModel]
  | some model =>
    have visited : graph.Visited 1 [id] := Visited.nil.cons (index_lt_of_model? isModel) (by simp)
    exact bases_eq visited (by omega) (by omega) id

theorem ancestry_eq_ok_iff : graph.ancestry id = .ok chain ↔
    chain.Nodup ∧ chain.getLast? = some id ∧ chain.IsChain graph.IsBase ∧
    ∃ first, chain.head? = some first ∧ graph.EndsAt chain first := by
  constructor
  · intro run
    rcases ancestry_walked graph id with
      ⟨chain', first, run', walk, starts, stops⟩ | ⟨e, path, last, run', -⟩
    · obtain rfl := Except.ok.inj (run.symm.trans run')
      obtain ⟨distinct, ends, steps⟩ := baseWalk_reverse_iff.mp walk
      exact ⟨distinct, ends, steps, first, starts, stops⟩
    · cases run.symm.trans run'
  · rintro ⟨distinct, ends, steps, first, starts, stops⟩
    have walk := baseWalk_reverse_iff.mpr ⟨distinct, ends, steps⟩
    rcases ancestry_walked graph id with
      ⟨chain', first', run, walk', starts', stops'⟩ | ⟨e, path, last, -, walk', ends', fails⟩
    · have same := walk.unique walk' (stops.stuck starts) (stops'.stuck starts')
      rw [run, List.reverse_inj.mp same]
    · exact absurd fails (not_ends_and_fails walk starts stops walk' ends')

theorem ancestry_eq_error_iff : graph.ancestry id = .error e ↔
    ∃ path last, graph.BaseWalk id path ∧ path.getLast? = some last ∧ graph.FailsAt last e := by
  constructor
  · intro run
    rcases ancestry_walked graph id with
      ⟨chain, first, run', -⟩ | ⟨e', path, last, run', walk, ends, fails⟩
    · cases run.symm.trans run'
    · obtain rfl := Except.error.inj (run.symm.trans run')
      exact ⟨path, last, walk, ends, fails⟩
  · rintro ⟨path, last, walk, ends, fails⟩
    rcases ancestry_walked graph id with
      ⟨chain, first, -, walk', starts, stops⟩ | ⟨e', path', last', run, walk', ends', fails'⟩
    · exact absurd fails (not_ends_and_fails walk' starts stops walk ends)
    · obtain rfl := walk.unique walk' (fails.stuck ends) (fails'.stuck ends')
      obtain rfl := Option.some.inj (ends.symm.trans ends')
      rw [run, fails.unique fails']

/-- A model has a chain exactly if the walk from base to base ends without a name that stands for no
model. The chain is the way of that walk: no model twice, each the base of the next one, and the
first one without base or with a base in the chain. Otherwise that name is the failure. More fuel
makes no difference. -/
theorem ancestry_is_walk (graph : TypeGraph) (id : TypeId) :
    (∀ chain, graph.ancestry id = .ok chain ↔
      chain.Nodup ∧ chain.getLast? = some id ∧ chain.IsChain graph.IsBase ∧
      ∃ first, chain.head? = some first ∧ graph.EndsAt chain first) ∧
    (∀ e, graph.ancestry id = .error e ↔ ∃ path last, graph.BaseWalk id path ∧
      path.getLast? = some last ∧ graph.FailsAt last e) ∧
    ∀ fuel, graph.types.size < fuel →
      (graph.bases fuel [id] id).map (fun bases => (id :: bases).reverse) = graph.ancestry id := by
  refine ⟨fun _ => ancestry_eq_ok_iff, fun _ => ancestry_eq_error_iff, fun fuel enough => ?_⟩
  rw [bases_of_enough enough (Nat.lt_succ_self graph.types.size), ancestry]
  cases graph.bases (graph.types.size + 1) [id] id <;> rfl

/-- A cycle of bases that does not lead back to the model. -/
example : let graph : TypeGraph := {
      version := "1"
      types := .ofEntries [
        ("Leaf", .model { base := some "Left" }),
        ("Left", .model { base := some "Right" }),
        ("Right", .model { base := some "Left" })] }
    graph.ancestry ⟨0⟩ = .ok [⟨2⟩, ⟨1⟩, ⟨0⟩] := rfl

end WireSchema.TypeGraph
