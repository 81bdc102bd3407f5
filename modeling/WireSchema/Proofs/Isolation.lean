import WireSchema.Proofs.Independence
import WireSchema.Proofs.Reading

/-! An operation is put into a route all at once: if any of its stages fails, the route stays as it
was. Every stage comes to what it comes to alone, so that the stages of a verb do not get in each
other's way, and neither does what was reported before. -/
namespace WireSchema

open ConvertM

structure Progress where
  item : PathItem
  diagnostics : Diagnostics

/-- A step on a route in place. What it has done to the route or reported outlives a failure. -/
abbrev RouteM := ExceptT OperationError (StateM Progress)

def OperationM.besideRoute {α : Type} (x : OperationM α) : RouteM α :=
  ExceptT.mk fun p =>
    let (result, diagnostics) := x.run p.diagnostics
    (result, { p with diagnostics })

namespace TypeGraph

/-- Puts an operation under its verb in the route itself. -/
def convertInPlace (graph : TypeGraph) (operation : Operation) : RouteM Unit := do
  let operationId := Naming.operationId operation.container operation.name
  match Stage.ofVerb operation.verb with
  | [] =>
    OperationM.besideRoute (modify (·.report .unexpectedVerb operationId
      ("verb `" ++ operation.verb.name ++ "` is not expected")))
  | stages => do
    let assembler ← (Assembler.ofOperation graph operation operationId).besideRoute
    let operations ← (assembleStages assembler
      { operationId, pageable := graph.pageable? operation } stages).besideRoute
    modify fun p => { p with item := p.item.put operation.verb operations }

variable {graph : TypeGraph} {o : Operation} {item : PathItem} {ds : Diagnostics}

theorem convertInPlace_unstaged (unstaged : Stage.ofVerb o.verb = []) :
    outcome (graph.convertInPlace o) ⟨item, ds⟩ =
      (.ok (), ⟨item, ds.report .unexpectedVerb (Naming.operationId o.container o.name)
        ("verb `" ++ o.verb.name ++ "` is not expected")⟩) := by
  unfold convertInPlace
  rw [unstaged]
  rfl

theorem convertInPlace_staged (staged : Stage.ofVerb o.verb ≠ []) :
    outcome (graph.convertInPlace o) ⟨item, ds⟩ =
      match outcome (graph.verbOperations o) ds with
      | (.ok v, ds') => (.ok (), ⟨item.put o.verb v, ds'⟩)
      | (.error e, ds') => (.error e, ⟨item, ds'⟩) := by
  have beside {α : Type} (x : OperationM α) (ds : Diagnostics) :
      outcome x.besideRoute ⟨item, ds⟩ = ((outcome x ds).1, ⟨item, (outcome x ds).2⟩) := rfl
  unfold convertInPlace verbOperations
  cases stages : Stage.ofVerb o.verb with
  | nil => exact absurd stages staged
  | cons first rest =>
    simp only [outcome_bind, beside]
    rcases outcome (Assembler.ofOperation graph o _) ds with ⟨_ | assembler, ds₁⟩
    · rfl
    · simp only [beside]
      rcases outcome (assembleStages assembler _ _) ds₁ with ⟨_ | v, ds₂⟩ <;> rfl

/-- In place an operation does to a route what it does to a route that is handed on. -/
theorem convertInPlace_eq (graph : TypeGraph) (o : Operation) (item : PathItem) (ds : Diagnostics) :
    outcome (graph.convertInPlace o) ⟨item, ds⟩ =
      match outcome (graph.convertOperation item o) ds with
      | (.ok item', ds') => (.ok (), ⟨item', ds'⟩)
      | (.error e, ds') => (.error e, ⟨item, ds'⟩) := by
  by_cases staged : Stage.ofVerb o.verb = []
  · rw [convertInPlace_unstaged staged, convertOperation_unstaged staged]
    rfl
  · rw [convertInPlace_staged staged, convertOperation_staged staged, outcome_bind]
    rcases outcome (graph.verbOperations o) ds with ⟨_ | v, ds'⟩ <;> rfl

end TypeGraph

namespace Repeatable

/-- What was reported before is followed by what is reported alone, and makes no difference. -/
theorem outcome_eq {α : Type} {x : OperationM α} (repeatable : Repeatable x) (ds : Diagnostics) :
    outcome x ds = ((outcome x []).1, ds ++ (outcome x []).2) := by
  obtain ⟨result, reports, runs⟩ := repeatable
  simp [runs]

end Repeatable

namespace Assembler

/-- What assembling a stage comes to if nothing was assembled or reported before. -/
def alone (a : Assembler) (stage : Stage) : Except OperationError OperationSchema × Diagnostics :=
  outcome (a.assemble stage) []

theorem outcome_assemble (a : Assembler) (stage : Stage) (ds : Diagnostics) :
    outcome (a.assemble stage) ds = ((a.alone stage).1, ds ++ (a.alone stage).2) :=
  (a.assemble_repeatable stage).outcome_eq ds

/-- A stage that is assembled after others comes to what it comes to alone. -/
theorem alone_of_yields {a : Assembler} {stage : Stage} {schema : OperationSchema}
    {ds ds' : Diagnostics} (run : Yields (a.assemble stage) ds schema ds') :
    (a.alone stage).1 = .ok schema ∧ ds' = ds ++ (a.alone stage).2 := by
  have here := (a.outcome_assemble stage ds).symm.trans run
  exact ⟨(Prod.mk.inj here).1, (Prod.mk.inj here).2.symm⟩

end Assembler

/-- Operations of a verb of which each stage is assembled alone, and all that is reported then. -/
structure AssembledApart (graph : TypeGraph) (o : Operation) (v : VerbOperations)
    (reports : Diagnostics) : Prop where
  operationId : v.operationId = Naming.operationId o.container o.name
  pageable : v.pageable = graph.pageable? o
  stages : ∃ assembler prepared,
    Yields (Assembler.ofOperation graph o v.operationId) [] assembler prepared ∧
    (∀ stage ∈ Stage.ofVerb o.verb, ∃ schema, (assembler.alone stage).1 = .ok schema ∧
      v.stage? stage = some schema) ∧
    reports = prepared ++ (Stage.ofVerb o.verb).flatMap fun stage => (assembler.alone stage).2
  others : ∀ stage, stage ∉ Stage.ofVerb o.verb → v.stage? stage = none

/-- The parameters of the host fail, or a stage does that is assembled alone. -/
def FailsApart (graph : TypeGraph) (o : Operation) (e : OperationError) : Prop :=
  (outcome (Assembler.ofOperation graph o (Naming.operationId o.container o.name)) []).1 =
      .error e ∨
    ∃ assembler prepared,
      Yields (Assembler.ofOperation graph o (Naming.operationId o.container o.name)) []
        assembler prepared ∧
      ∃ stage ∈ Stage.ofVerb o.verb, (assembler.alone stage).1 = .error e

namespace TypeGraph

variable {graph : TypeGraph} {assembler : Assembler} {o : Operation} {stages : List Stage}
  {v v' : VerbOperations} {ds ds' : Diagnostics} {e : OperationError}

theorem reports_assembleStages (run : Yields (assembleStages assembler v stages) ds v' ds') :
    ds' = ds ++ stages.flatMap fun stage => (assembler.alone stage).2 := by
  unfold assembleStages at run
  induction stages generalizing v ds with
  | nil =>
    obtain ⟨-, rfl⟩ := yields_pure.mp run
    simp
  | cons first rest ih =>
    rw [List.foldlM_cons] at run
    obtain ⟨v₁, ds₁, step, run⟩ := yields_bind.mp run
    obtain ⟨schema, ds₂, assembled, put⟩ := yields_bind.mp step
    obtain ⟨-, rfl⟩ := yields_pure.mp put
    rw [ih run, (Assembler.alone_of_yields assembled).2, List.flatMap_cons, List.append_assoc]

theorem error_assembleStages
    (failed : (outcome (assembleStages assembler v stages) ds).1 = .error e) :
    ∃ stage ∈ stages, (assembler.alone stage).1 = .error e := by
  unfold assembleStages at failed
  induction stages generalizing v ds with
  | nil => cases failed
  | cons first rest ih =>
    rw [List.foldlM_cons, outcome_bind, outcome_bind, Assembler.outcome_assemble] at failed
    cases first_alone : (assembler.alone first).1 with
    | error e' =>
      rw [first_alone] at failed
      obtain rfl : e' = e := by simpa using failed
      exact ⟨first, List.mem_cons_self, first_alone⟩
    | ok schema =>
      rw [first_alone] at failed
      obtain ⟨stage, member, fails⟩ := ih failed
      exact ⟨stage, List.mem_cons_of_mem _ member, fails⟩

theorem assembledApart_of_yields (run : Yields (graph.verbOperations o) [] v ds') :
    AssembledApart graph o v ds' := by
  obtain ⟨assembler, prepared, made, run⟩ := yields_bind.mp run
  obtain ⟨operationId, pageable, stages, others⟩ := assembleStages_spec run
  refine ⟨operationId, pageable, ⟨assembler, prepared, operationId ▸ made, fun stage member => ?_,
    reports_assembleStages run⟩, (converts_of_yields (yields_bind.mpr ⟨_, _, made, run⟩)).others⟩
  obtain ⟨schema, _, _, put, assembled⟩ := stages stage member
  exact ⟨schema, (Assembler.alone_of_yields assembled).1, put⟩

theorem failsApart_of_error (failed : (outcome (graph.verbOperations o) []).1 = .error e) :
    FailsApart graph o e := by
  unfold verbOperations at failed
  rw [outcome_bind] at failed
  rcases made : outcome (Assembler.ofOperation graph o _) [] with ⟨e' | assembler, prepared⟩
  · rw [made] at failed
    obtain rfl : e' = e := by simpa using failed
    exact .inl (by rw [made])
  · rw [made] at failed
    exact .inr ⟨assembler, prepared, made, error_assembleStages failed⟩

/-- What becomes of a route does not depend on what was reported before, which stays in front, nor
on whether the route is put together in place or handed on. If the operation fails the route is as
it was, and the parameters of the host or a stage fail alone as well. If it succeeds it takes the
place of its verb, with exactly the stages of the verb, each as it is assembled alone. A verb
without stages leaves the route as it is and is reported once. -/
theorem operation_is_put_whole (graph : TypeGraph) (o : Operation) :
    ∃ result reports change,
      (∀ item ds, outcome (graph.convertInPlace o) ⟨item, ds⟩ =
        (result, ⟨change item, ds ++ reports⟩)) ∧
      (∀ item ds, outcome (graph.convertOperation item o) ds =
        (result.map fun _ => change item, ds ++ reports)) ∧
      (∀ e, result = .error e → change = id ∧ FailsApart graph o e) ∧
      (Stage.ofVerb o.verb = [] → result = .ok () ∧ change = id ∧
        reports = [⟨.unexpectedVerb, "verb `" ++ o.verb.name ++ "` is not expected",
          Naming.operationId o.container o.name⟩]) ∧
      (Stage.ofVerb o.verb ≠ [] → result = .ok () → ∃ v, AssembledApart graph o v reports ∧
        ∀ item, (change item).get? o.verb = some v ∧
          (∀ verb, verb ≠ o.verb → (change item).get? verb = item.get? verb) ∧
          (change item).keys =
            if o.verb ∈ item.keys then item.keys else item.keys ++ [o.verb]) := by
  by_cases staged : Stage.ofVerb o.verb = []
  · refine ⟨.ok (), _, id, fun item ds => convertInPlace_unstaged staged, fun item ds => ?_, nofun,
      fun _ => ⟨rfl, rfl, rfl⟩, fun other => absurd staged other⟩
    rw [convertOperation_unstaged staged]
    rfl
  have converted (item : PathItem) (ds : Diagnostics) :
      outcome (graph.convertOperation item o) ds =
        ((outcome (graph.verbOperations o) []).1.map (item.put o.verb),
          ds ++ (outcome (graph.verbOperations o) []).2) := by
    rw [convertOperation_staged staged, outcome_bind,
      (graph.verbOperations_repeatable o).outcome_eq]
    cases (outcome (graph.verbOperations o) []).1 <;> rfl
  cases made : (outcome (graph.verbOperations o) []).1 with
  | error e =>
    rw [made] at converted
    refine ⟨.error e, _, id, fun item ds => ?_, converted, ?_,
      fun unstaged => absurd unstaged staged, nofun⟩
    · rw [convertInPlace_eq, converted]
      rfl
    · rintro _ ⟨⟩
      exact ⟨rfl, failsApart_of_error made⟩
  | ok v =>
    rw [made] at converted
    refine ⟨.ok (), _, fun item => item.put o.verb v, fun item ds => ?_, converted, nofun,
      fun unstaged => absurd unstaged staged, fun _ _ => ⟨v, ?_, fun item => ⟨?_, ?_, ?_⟩⟩⟩
    · rw [convertInPlace_eq, converted]
      rfl
    · exact assembledApart_of_yields (Prod.ext made rfl)
    · exact OrderedMap.get?_put_self ..
    · exact fun verb other => OrderedMap.get?_put_other _ other v
    · split
      · exact OrderedMap.keys_put_of_mem ‹_› v
      · exact OrderedMap.keys_put_of_not_mem ‹_› v

/-- Both stages of putting a node are put into an empty route, whatever was reported before. -/
theorem put_node_put_whole (ds : Diagnostics) : ∃ item v,
    outcome (Converter.nodes.graph.convertInPlace Assembler.putNode) ⟨.empty, ds⟩ =
      (.ok (), ⟨item, ds⟩) ∧
    outcome (Converter.nodes.graph.convertOperation .empty Assembler.putNode) ds = (.ok item, ds) ∧
    item.keys = [.put] ∧ item.get? .put = some v ∧ v.read.isNone ∧
    AssembledApart Converter.nodes.graph Assembler.putNode v [] := by
  obtain ⟨result, reports, change, runs, handedOn, -, -, whole⟩ :=
    operation_is_put_whole Converter.nodes.graph Assembler.putNode
  have here := runs .empty []
  obtain rfl : result = .ok () := (congrArg Prod.fst here).symm
  obtain rfl : reports = [] := (congrArg (·.2.diagnostics) here).symm
  obtain ⟨v, apart, slots⟩ := whole (by decide) rfl
  obtain ⟨put, -, keys⟩ := slots .empty
  refine ⟨_, v, by simpa using runs .empty ds, by simpa [Except.map] using handedOn .empty ds, keys,
    put, ?_, apart⟩
  rw [show v.read = none from apart.others .read (by decide)]
  rfl

end TypeGraph
end WireSchema
