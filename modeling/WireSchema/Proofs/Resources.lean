import WireSchema.Proofs.Assembly
import WireSchema.Resource

/-! Which operations are found under the ids of resources. Operations with one id and one verb are
rivals: there is one place for them all. -/
namespace WireSchema

open ConvertM

/-- The schemas of an operation under its id, one for each stage of its verb. -/
structure Converts (graph : TypeGraph) (o : Operation) (v : VerbOperations) : Prop where
  operationId : v.operationId = Naming.operationId o.container o.name
  pageable : v.pageable = graph.pageable? o
  stages : ∃ assembler ds ds',
    Yields (Assembler.ofOperation graph o v.operationId) ds assembler ds' ∧
    ∀ stage ∈ Stage.ofVerb o.verb, ∃ schema ds ds', v.stage? stage = some schema ∧
      Yields (assembler.assemble stage) ds schema ds'
  others : ∀ stage, stage ∉ Stage.ofVerb o.verb → v.stage? stage = none

namespace VerbOperations

variable (v : VerbOperations) (stage : Stage) (schema : OperationSchema)

@[simp] theorem operationId_withStage : (v.withStage stage schema).operationId = v.operationId := by
  cases stage <;> rfl

@[simp] theorem pageable_withStage : (v.withStage stage schema).pageable = v.pageable := by
  cases stage <;> rfl

@[simp] theorem stage?_withStage (s : Stage) :
    (v.withStage stage schema).stage? s = if s = stage then some schema else v.stage? s := by
  cases stage <;> cases s <;> rfl

end VerbOperations

namespace TypeGraph

variable {graph : TypeGraph} {assembler : Assembler} {o : Operation} {item item' : PathItem}
  {ds ds' : Diagnostics}

theorem assembleStages_spec {stages : List Stage} {v v' : VerbOperations}
    (run : Yields (assembleStages assembler v stages) ds v' ds') :
    v'.operationId = v.operationId ∧ v'.pageable = v.pageable ∧
      (∀ stage ∈ stages, ∃ schema ds ds', v'.stage? stage = some schema ∧
        Yields (assembler.assemble stage) ds schema ds') ∧
      ∀ stage, stage ∉ stages → v'.stage? stage = v.stage? stage := by
  unfold assembleStages at run
  induction stages generalizing v ds with
  | nil =>
    obtain ⟨rfl, -⟩ := yields_pure.mp run
    simp
  | cons first rest ih =>
    rw [List.foldlM_cons] at run
    obtain ⟨v₁, ds₁, step, run⟩ := yields_bind.mp run
    obtain ⟨schema, ds₂, assembled, put⟩ := yields_bind.mp step
    obtain ⟨rfl, rfl⟩ := yields_pure.mp put
    obtain ⟨operationId, pageable, stages, others⟩ := ih run
    refine ⟨by simpa using operationId, by simpa using pageable, fun stage member => ?_,
      fun stage absent => ?_⟩
    · by_cases later : stage ∈ rest
      · exact stages stage later
      · obtain rfl : stage = first := (List.mem_cons.mp member).resolve_right later
        exact ⟨schema, _, _, by simp [others _ later], assembled⟩
    · rw [List.mem_cons, not_or] at absent
      simp [others stage absent.2, absent.1]

def verbOperations (graph : TypeGraph) (o : Operation) : OperationM VerbOperations := do
  let operationId := Naming.operationId o.container o.name
  let assembler ← Assembler.ofOperation graph o operationId
  assembleStages assembler { operationId, pageable := graph.pageable? o } (Stage.ofVerb o.verb)

theorem converts_of_yields {v : VerbOperations} (run : Yields (graph.verbOperations o) ds v ds') :
    Converts graph o v := by
  obtain ⟨assembler, ds₁, made, run⟩ := yields_bind.mp run
  obtain ⟨operationId, pageable, stages, others⟩ := assembleStages_spec run
  refine ⟨operationId, pageable, ⟨assembler, ds, ds₁, operationId ▸ made, stages⟩, ?_⟩
  intro stage absent
  rw [others stage absent]
  cases stage <;> rfl

/-- An operation takes the place of its verb, whoever had it before. -/
theorem convertOperation_staged (staged : Stage.ofVerb o.verb ≠ []) (item : PathItem) :
    graph.convertOperation item o = do return item.put o.verb (← graph.verbOperations o) := by
  unfold convertOperation verbOperations
  cases stages : Stage.ofVerb o.verb with
  | nil => exact absurd stages staged
  | cons first rest => simp

theorem convertOperation_unstaged (unstaged : Stage.ofVerb o.verb = []) (item : PathItem) :
    graph.convertOperation item o = do
      modify (·.report .unexpectedVerb (Naming.operationId o.container o.name)
        ("verb `" ++ o.verb.name ++ "` is not expected"))
      return item := by
  unfold convertOperation
  rw [unstaged]

/-- What is reported about an operation does not depend on what has been found before. -/
theorem convertOperation_reports (run : Yields (graph.convertOperation item o) ds item' ds')
    (other : PathItem) : ∃ other', Yields (graph.convertOperation other o) ds other' ds' := by
  by_cases staged : Stage.ofVerb o.verb = []
  · rw [convertOperation_unstaged staged] at run ⊢
    obtain ⟨u, ds₁, reported, kept⟩ := yields_bind.mp run
    obtain ⟨-, rfl⟩ := yields_pure.mp kept
    exact ⟨_, yields_bind.mpr ⟨u, _, reported, yields_pure.mpr ⟨rfl, rfl⟩⟩⟩
  · rw [convertOperation_staged staged] at run ⊢
    obtain ⟨v, ds₁, made, put⟩ := yields_bind.mp run
    obtain ⟨-, rfl⟩ := yields_pure.mp put
    exact ⟨_, yields_bind.mpr ⟨v, _, made, yields_pure.mpr ⟨rfl, rfl⟩⟩⟩

end TypeGraph

/-- The operations for one place: those of a resource under a verb. -/
def operationsAt (operations : List Operation) (id : String) (verb : Verb) : List Operation :=
  operations.filter fun o => o.resourceId = id ∧ o.verb = verb

/-- The operations that want the place of an operation, itself among them. -/
def TypeGraph.rivals (graph : TypeGraph) (o : Operation) : List Operation :=
  operationsAt graph.operations o.resourceId o.verb

theorem operationsAt_append (before : List Operation) (o : Operation) (id : String) (verb : Verb) :
    operationsAt (before ++ [o]) id verb =
      operationsAt before id verb ++ if o.resourceId = id ∧ o.verb = verb then [o] else [] := by
  unfold operationsAt
  rw [List.filter_append]
  by_cases here : o.resourceId = id ∧ o.verb = verb
  · simp [here]
  · simp [here]

namespace TypeGraph

variable {graph : TypeGraph} {item item' : PathItem} {ds ds' : Diagnostics} {o : Operation}
  {verb : Verb}

/-- The other verbs of a route stay as they are. -/
theorem convertOperation_other (run : Yields (graph.convertOperation item o) ds item' ds')
    (differ : verb ≠ o.verb) : item'.get? verb = item.get? verb := by
  by_cases staged : Stage.ofVerb o.verb = []
  · rw [convertOperation_unstaged staged] at run
    obtain ⟨_, _, _, kept⟩ := yields_bind.mp run
    obtain ⟨rfl, -⟩ := yields_pure.mp kept
    rfl
  · rw [convertOperation_staged staged] at run
    obtain ⟨v, _, _, put⟩ := yields_bind.mp run
    obtain ⟨rfl, -⟩ := yields_pure.mp put
    exact OrderedMap.get?_put_other _ differ v

theorem convertOperation_self (run : Yields (graph.convertOperation item o) ds item' ds')
    (staged : Stage.ofVerb o.verb ≠ []) :
    ∃ v, item'.get? o.verb = some v ∧ Converts graph o v := by
  rw [convertOperation_staged staged] at run
  obtain ⟨v, _, made, put⟩ := yields_bind.mp run
  obtain ⟨rfl, -⟩ := yields_pure.mp put
  exact ⟨v, OrderedMap.get?_put_self .., converts_of_yields made⟩

end TypeGraph

/-- What is found of a resource when some operations have been gone through: for every verb the last
of those for its place. -/
def Keeps (graph : TypeGraph) (before : List Operation) (id : String) (item : PathItem) : Prop :=
  ∀ verb, Stage.ofVerb verb ≠ [] →
    Option.Rel (Converts graph) (operationsAt before id verb).getLast? (item.get? verb)

namespace Keeps

variable {graph : TypeGraph} {before : List Operation} {o : Operation} {item item' : PathItem}
  {ds ds' : Diagnostics}

/-- An operation of another resource makes no difference. -/
theorem skip {id : String} (keeps : Keeps graph before id item) (elsewhere : o.resourceId ≠ id) :
    Keeps graph (before ++ [o]) id item := by
  intro verb staged
  rw [operationsAt_append, if_neg fun here => elsewhere here.1, List.append_nil]
  exact keeps verb staged

/-- An operation of the resource takes the place of its verb. -/
theorem convert (keeps : Keeps graph before o.resourceId item)
    (run : Yields (graph.convertOperation item o) ds item' ds') :
    Keeps graph (before ++ [o]) o.resourceId item' := by
  intro verb staged
  rw [operationsAt_append]
  by_cases its : verb = o.verb
  · subst its
    obtain ⟨v, there, converts⟩ := TypeGraph.convertOperation_self run staged
    rw [if_pos ⟨rfl, rfl⟩, List.getLast?_concat, there]
    exact .some converts
  · rw [if_neg fun here => its here.2.symm, List.append_nil,
      TypeGraph.convertOperation_other run its]
    exact keeps verb staged

/-- Where all operations have been gone through, the last rival has the place of an operation. -/
theorem last (keeps : Keeps graph graph.operations o.resourceId item)
    (member : o ∈ graph.operations) (staged : Stage.ofVerb o.verb ≠ []) :
    ∃ last v, (graph.rivals o).getLast? = some last ∧ item.get? o.verb = some v ∧
      Converts graph last v := by
  have rival : o ∈ graph.rivals o := List.mem_filter.mpr ⟨member, by simp⟩
  have latest := List.getLast?_eq_some_getLast (List.ne_nil_of_mem rival)
  have kept : Option.Rel (Converts graph) (graph.rivals o).getLast? (item.get? o.verb) :=
    keeps o.verb staged
  rw [latest] at kept
  cases there : item.get? o.verb with
  | none =>
    rw [there] at kept
    cases kept
  | some v =>
    rw [there] at kept
    cases kept with
    | some converts => exact ⟨_, v, latest, rfl, converts⟩

end Keeps

namespace ResourceOperations

/-- A search that has gone through some operations has an entry for each id that is asked for. -/
structure Searched (graph : TypeGraph) (ids : List String) (before : List Operation)
    (search : Search) : Prop where
  asked : ∀ id, (search.get? id).isSome ↔ id ∈ ids
  kept : ∀ id found, search.get? id = some found → Keeps graph before id found.item

variable {graph : TypeGraph} {ids : List String} {before : List Operation} {search search' : Search}
  {o : Operation} {ds ds' : Diagnostics}

theorem get?_ofIds (ids : List String) (id : String) :
    (Search.ofIds ids).get? id = if id ∈ ids then some {} else none := by
  have fold (ids : List String) (search : Search) :
      ((ids.map (·, ({} : Found))).foldl (fun m e => m.put e.1 e.2) search).get? id =
        if id ∈ ids then some {} else search.get? id := by
    induction ids generalizing search with
    | nil => rfl
    | cons first rest ih =>
      rw [List.map_cons, List.foldl_cons, ih]
      by_cases same : id = first
      · simp [same]
      · simp [same, OrderedMap.get?_put_other]
  exact fold ids .empty

theorem searched_ofIds : Searched graph ids [] (.ofIds ids) where
  asked id := by
    rw [get?_ofIds]
    split <;> simp_all
  kept id found known verb _ := by
    rw [get?_ofIds] at known
    split at known <;> cases known
    exact .none

theorem Searched.find (searched : Searched graph ids before search)
    (run : Yields (findOperation graph search o) ds search' ds') :
    Searched graph ids (before ++ [o]) search' := by
  unfold findOperation at run
  cases here : search.get? o.resourceId with
  | none =>
    simp only [here, yields_pure] at run
    obtain ⟨rfl, -⟩ := run
    refine ⟨searched.asked, fun id found known => (searched.kept id found known).skip ?_⟩
    rintro rfl
    rw [here] at known
    cases known
  | some found =>
    simp only [here] at run
    obtain ⟨item, ds₁, converted, put⟩ := yields_bind.mp run
    obtain ⟨rfl, -⟩ := yields_pure.mp put
    constructor
    · intro id
      by_cases same : id = o.resourceId
      · subst same
        rw [OrderedMap.get?_put_self, ← searched.asked, here]
        simp
      · rw [OrderedMap.get?_put_other _ same]
        exact searched.asked id
    · intro id found' known
      by_cases same : id = o.resourceId
      · subst same
        rw [OrderedMap.get?_put_self] at known
        obtain rfl := Option.some.inj known
        exact (searched.kept o.resourceId found here).convert converted
      · rw [OrderedMap.get?_put_other _ same] at known
        exact (searched.kept id found' known).skip (Ne.symm same)

/-- What is reported is what is reported about the operations that are asked for, each on its
own. -/
theorem Searched.reports (searched : Searched graph ids before search)
    (run : Yields (findOperation graph search o) ds search' ds') :
    if o.resourceId ∈ ids then ∃ item, Yields (graph.convertOperation .empty o) ds item ds'
    else ds' = ds := by
  unfold findOperation at run
  cases here : search.get? o.resourceId with
  | none =>
    have absent : o.resourceId ∉ ids := by simp [← searched.asked, here]
    simp only [here, yields_pure] at run
    rw [if_neg absent]
    exact run.2.symm
  | some found =>
    have asked : o.resourceId ∈ ids := by simp [← searched.asked, here]
    simp only [here] at run
    obtain ⟨item, ds₁, converted, put⟩ := yields_bind.mp run
    obtain ⟨-, rfl⟩ := yields_pure.mp put
    rw [if_pos asked]
    exact TypeGraph.convertOperation_reports converted .empty

def reportAll (graph : TypeGraph) : List Operation → OperationM Unit
  | [] => return ()
  | o :: rest => do
    let _ ← graph.convertOperation .empty o
    reportAll graph rest

theorem Searched.findAll {operations : List Operation}
    (searched : Searched graph ids before search)
    (run : Yields (operations.foldlM (findOperation graph) search) ds search' ds') :
    Searched graph ids (before ++ operations) search' ∧
      Yields (reportAll graph (operations.filter (·.resourceId ∈ ids))) ds () ds' := by
  induction operations generalizing before search ds with
  | nil =>
    obtain ⟨rfl, rfl⟩ := yields_pure.mp run
    exact ⟨by simpa using searched, yields_pure.mpr ⟨rfl, rfl⟩⟩
  | cons o rest ih =>
    rw [List.foldlM_cons] at run
    obtain ⟨search₁, ds₁, step, run⟩ := yields_bind.mp run
    obtain ⟨searched', reported⟩ := ih (searched.find step) run
    refine ⟨by simpa using searched', ?_⟩
    have first := searched.reports step
    by_cases asked : o.resourceId ∈ ids
    · rw [if_pos asked] at first
      obtain ⟨item, converted⟩ := first
      rw [List.filter_cons_of_pos (by simpa using asked)]
      exact yields_bind.mpr ⟨item, ds₁, converted, reported⟩
    · rw [if_neg asked] at first
      rw [List.filter_cons_of_neg (by simpa using asked), ← first]
      exact reported

/-- Of the operations with one id and one verb the last is found under the id, and the others are
not there. What is reported is what is reported about each operation alone, so that nothing is said
about those that are left out. -/
theorem last_rival_is_found (graph : TypeGraph) (ids : List String)
    {out : List ResourceOperations} {ds ds' : Diagnostics}
    (run : Yields (ofIds graph ids) ds out ds') :
    (∀ o ∈ graph.operations, Stage.ofVerb o.verb ≠ [] → o.resourceId ∈ ids →
      ∃ r ∈ out, r.id = o.resourceId ∧ (∀ r' ∈ out, r'.id = o.resourceId → r' = r) ∧
        ∃ last v, (graph.rivals o).getLast? = some last ∧ r.item.get? o.verb = some v ∧
          Converts graph last v) ∧
    Yields (reportAll graph (graph.operations.filter (·.resourceId ∈ ids))) ds () ds' := by
  obtain ⟨search, ds₁, found, collected⟩ := yields_bind.mp run
  obtain ⟨rfl, rfl⟩ := yields_pure.mp collected
  obtain ⟨searched, reported⟩ := searched_ofIds.findAll found
  refine ⟨fun o member staged asked => ?_, reported⟩
  obtain ⟨found, here⟩ := Option.isSome_iff_exists.mp ((searched.asked o.resourceId).mpr asked)
  have kept : Keeps graph graph.operations o.resourceId found.item :=
    searched.kept o.resourceId found here
  obtain ⟨last, v, latest, there, converts⟩ := kept.last member staged
  have filled : found.item.isEmpty = false := by
    cases empty : found.item.entries with
    | nil => simp [OrderedMap.get?, empty] at there
    | cons e rest => simp [OrderedMap.isEmpty, empty]
  refine ⟨⟨o.resourceId, found.path, graph.apiVersion, found.item⟩, ?_, rfl, ?_,
    last, v, latest, there, converts⟩
  · have entry := OrderedMap.mem_of_get? here
    exact List.mem_map.mpr ⟨_, List.mem_filter.mpr ⟨entry, by simp [filled]⟩, rfl⟩
  · intro r' member' same
    obtain ⟨⟨id, found'⟩, inside, rfl⟩ := List.mem_map.mp member'
    obtain rfl : id = o.resourceId := same
    have there' := OrderedMap.get?_of_mem (List.mem_filter.mp inside).1
    obtain rfl := Option.some.inj (here.symm.trans there')
    rfl

/-- An operation that reads widgets. -/
def firstReader : Operation := { name := "first", verb := .get, path := "/Widgets" }

/-- Another one, at a path that differs in its capitals only. -/
def secondReader : Operation := { name := "second", verb := .get, path := "/widgets" }

def readers : TypeGraph where
  version := "1"
  operations := [firstReader, secondReader]

def widgets : List String := ["/widgets"]

theorem second_reader_found : ∃ out, Yields (ofIds readers widgets) [] out [] ∧
    ∃ r ∈ out, r.id = firstReader.resourceId ∧ ∃ v, r.item.get? .get = some v ∧
      Converts readers secondReader v := by
  obtain ⟨out, run⟩ : ∃ out, Yields (ofIds readers widgets) [] out [] := ⟨_, rfl⟩
  have rivals : (readers.rivals firstReader).getLast? = some secondReader := by rfl
  obtain ⟨r, member, id, -, last, v, latest, here, converts⟩ :=
    (last_rival_is_found readers widgets run).1 firstReader List.mem_cons_self (by decide)
      (by decide +kernel)
  obtain rfl := Option.some.inj (rivals.symm.trans latest)
  exact ⟨out, run, r, member, id, v, here, converts⟩

/-- The first reader is not found, and nothing is reported. -/
theorem first_reader_lost : ∃ out, Yields (ofIds readers widgets) [] out [] ∧
    firstReader ∈ readers.operations ∧ Stage.ofVerb firstReader.verb ≠ [] ∧
    firstReader.resourceId ∈ widgets ∧
    ∀ r ∈ out, ∀ v, r.item.get? firstReader.verb = some v →
      v.operationId ≠ Naming.operationId firstReader.container firstReader.name := by
  refine ⟨_, rfl, List.mem_cons_self, by decide, by decide +kernel, ?_⟩
  decide +kernel

end ResourceOperations
end WireSchema
