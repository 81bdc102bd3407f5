import WireSchema.Proofs.Simulation
import WireSchema.Resource

/-! Operations are assembled in parallel for graphs that agree under every visibility: requests,
responses and the operations of resources come out the same. -/
namespace WireSchema

open ConvertM Converter

variable {v : Visibility} {ρ : TypeId → TypeId} {graph graph' : TypeGraph}

namespace Agree

theorem isBytes_eq (agree : Agree v ρ graph graph') (type : TypeRef) :
    Content.isBytes graph' type = Content.isBytes graph type := by
  unfold Content.isBytes
  obtain ⟨e, here, there⟩ | ⟨r, r', here, there, related⟩ := (agree.resolve_agrees type).cases
  · rw [here, there]
  rw [here, there]
  cases related with
  | declared related => cases related <;> simp [agree.ofDeclared_eq]
  | @builtin scalar => cases scalar <;> rfl
  | _ => rfl

theorem format?_eq (agree : Agree .read ρ graph graph') (id : TypeId) :
    ErrorBody.format? graph' (ρ id) = ErrorBody.format? graph id := by
  unfold ErrorBody.format?
  rw [agree.size]
  induction graph.types.size + 1 generalizing id with
  | zero => rfl
  | succ fuel ih =>
    unfold ErrorBody.formatWithin
    refine Match.eq ?_ |>.symm
    refine (agree.payload_agrees id).bind fun ps ps' same => ?_
    subst same
    match ps with
    | [] => exact .refl _
    | [only] =>
      by_cases wrapper : Text.asciiLower only.name = "error"
      · simp only [List.map_cons, List.map_nil, EffectiveProperty.name_renumber,
          EffectiveProperty.decl_renumber, wrapper, ↓reduceIte]
        obtain ⟨e, here, there⟩ | ⟨r, r', here, there, related⟩ :=
          (agree.resolve_agrees only.decl.type).cases
        · rw [here, there]
          exact .refl _
        rw [here, there]
        have wrapped (inner : TypeId) : Match Eq
            (if inner = id then pure none else ErrorBody.formatWithin graph fuel inner)
            (if ρ inner = ρ id then pure none
              else ErrorBody.formatWithin graph' fuel (ρ inner)) := by
          simp only [ih, agree.injective.eq_iff]
          exact .refl _
        cases related with
        | @declared inner decl decl' related =>
          cases related with
          | model => exact wrapped inner
          | _ => exact .refl _
        | _ => exact .refl _
      · simp only [List.map_cons, List.map_nil, EffectiveProperty.name_renumber, wrapper,
          ↓reduceIte]
        exact .refl _
    | p :: q :: rest =>
      simp only [List.map_cons, List.map_map]
      exact .refl _

theorem schema?_eq (agree : Agree .read ρ graph graph') (type : Option TypeRef) (status : String) :
    ErrorBody.schema? graph' type status = ErrorBody.schema? graph type status := by
  unfold ErrorBody.schema?
  cases type with
  | none => rfl
  | some type =>
    simp only
    obtain ⟨e, here, there⟩ | ⟨r, r', here, there, related⟩ := (agree.resolve_agrees type).cases
    · rw [here, there]
    rw [here, there]
    cases related with
    | declared related => cases related <;> simp only [agree.format?_eq]
    | _ => rfl

theorem modelOf?_agrees (agree : Agree v ρ graph graph') (type : TypeRef) :
    graph.modelOf? type = none ∧ graph'.modelOf? type = none ∨
      ∃ id model model', graph.modelOf? type = some (id, model) ∧
        graph'.modelOf? type = some (ρ id, model') ∧
        AgreeingModel graph v type.text model model' := by
  cases type with
  | literal value => exact .inl ⟨rfl, rfl⟩
  | named name =>
    unfold TypeGraph.modelOf?
    obtain ⟨e, here, there⟩ | ⟨r, r', here, there, related⟩ := (agree.resolveName_agrees name).cases
    · exact .inl (by simp [here, there])
    cases related with
    | @declared id decl decl' related =>
      cases related with
      | model related => exact .inr ⟨id, _, _, by simp [here], by simp [there], related⟩
      | _ => exact .inl (by simp [here, there])
    | _ => exact .inl (by simp [here, there])

theorem ownPaging?_eq (agree : Agree v ρ graph graph') {key : String} {model model' : ModelType}
    (related : AgreeingModel graph v key model model') :
    graph'.ownPaging? model' = graph.ownPaging? model := by
  obtain ⟨entries⟩ := related
  unfold TypeGraph.ownPaging?
  congr 1
  cases model.base with
  | none => rfl
  | some base =>
    obtain ⟨e, here, there⟩ | ⟨⟨_, m⟩, ⟨_, m'⟩, here, there, -, ⟨_⟩⟩ :=
      (agree.modelNamed_agrees base).cases
    · simp [here, there, Except.toOption]
    · simp [here, there, Except.toOption]

theorem firstPaging?_eq (agree : Agree v ρ graph graph') (visited : List TypeId)
    (types : List TypeRef) :
    graph'.firstPaging? (visited.map ρ) types = graph.firstPaging? visited types := by
  have member (visited : List TypeId) (id : TypeId) : ρ id ∈ visited.map ρ ↔ id ∈ visited :=
    List.mem_map_of_injective agree.injective
  have found (type : TypeRef) := agree.modelOf?_agrees type
  induction visited, types using TypeGraph.firstPaging?.induct graph with
  | case1 visited => simp [TypeGraph.firstPaging?]
  | case2 visited type rest unlike ih =>
    obtain ⟨here, there⟩ | ⟨id, model, model', here, there, related⟩ := found type
    · rw [TypeGraph.firstPaging?_cons, TypeGraph.firstPaging?_cons, here, there]
      exact ih
    · simp [unlike] at here
  | case3 visited type rest id model known seen ih =>
    obtain ⟨here, there⟩ | ⟨id, model, model', here, there, related⟩ := found type
    · simp [known] at here
    · obtain ⟨rfl, rfl⟩ := Prod.mk.inj (Option.some.inj (known.symm.trans here))
      rw [TypeGraph.firstPaging?_cons, TypeGraph.firstPaging?_cons, here, there]
      simpa [member, seen] using ih
  | case4 visited type rest id model known new paging own =>
    obtain ⟨here, there⟩ | ⟨id, model, model', here, there, related⟩ := found type
    · simp [known] at here
    · obtain ⟨rfl, rfl⟩ := Prod.mk.inj (Option.some.inj (known.symm.trans here))
      rw [TypeGraph.firstPaging?_cons, TypeGraph.firstPaging?_cons, here, there]
      simp [member, new, agree.ownPaging?_eq related, own]
  | case5 visited type rest id model known new silent ih =>
    obtain ⟨here, there⟩ | ⟨id, model, model', here, there, related⟩ := found type
    · simp [known] at here
    · obtain ⟨rfl, rfl⟩ := Prod.mk.inj (Option.some.inj (known.symm.trans here))
      rw [TypeGraph.firstPaging?_cons, TypeGraph.firstPaging?_cons, here, there]
      simp only [member, new, agree.ownPaging?_eq related, silent]
      obtain ⟨entries⟩ := related
      simpa using ih

theorem pageable?_eq (agree : Agree v ρ graph graph') (operation : Operation) :
    graph'.pageable? operation = graph.pageable? operation := by
  unfold TypeGraph.pageable?
  simp only [← agree.firstPaging?_eq [], List.map_nil]

end Agree

section Requests

variable {c c' : Converter} (twins : ∀ v, Counterparts v ρ c c')
include twins

theorem hostParameter_parallel (name : String) (decl : HostParameter) :
    InStep ρ (c.hostParameter name decl) (c'.hostParameter name decl) := by
  refine ((twins .query).convert_parallel decl.type _ [] rfl).andThen fun s => ?_
  cases s <;> exact .pure rfl

theorem hostParameters_parallel : InStep ρ c.hostParameters c'.hostParameters := by
  unfold hostParameters
  rw [(twins .query).graph.service]
  cases c.graph.service.server with
  | none => exact .pure rfl
  | some server =>
    refine (Parallel.forIn (fun name => ?_) server.placeholders).andThen fun _ => ?_
    · split
      · exact (Parallel.report (twins .query).target ..).andThen fun _ => .pure rfl
      · exact .pure rfl
    · have each (e : String × HostParameter) :
          InStep ρ (c.hostParameter e.1 e.2) (c'.hostParameter e.1 e.2) :=
        hostParameter_parallel twins e.1 e.2
      exact Parallel.keepSame each server.parameters.entries

theorem parameter_parallel (p : Parameter) : InStep ρ (c.parameter p) (c'.parameter p) := by
  have convert (type : TypeRef) := (twins .query).convert_parallel type
    { visibility := .query, collection := p.collectionFormat } [p.constraints] rfl
  refine (Parallel.ofResolve ((twins .query).graph.resolve_agrees p.type)).bind
    fun r r' related => ?_
  rcases related with _ | _ | @⟨_ | _ | _ | _⟩ | _
  case intrinsic.never => exact .pure rfl
  all_goals
    refine (convert p.type).andThen fun s => ?_
    simp only [(twins .query).graph.isSecret_eq]
    cases s with
    | none =>
      simp only
      split
      · exact .throw _
      · exact .pure rfl
    | some s => exact .pure rfl

theorem addParameter_parallel (r : Arguments × Arguments × Headers) (p : Parameter) :
    InStep ρ (c.addParameter r p) (c'.addParameter r p) := by
  unfold addParameter
  simp only
  split
  · exact .pure rfl
  split
  · exact .pure rfl
  · refine (parameter_parallel twins p).andThen fun s => ?_
    cases s with
    | none => exact .pure rfl
    | some s => cases p.location <;> exact .pure rfl

theorem requestBody_parallel (decl : Option BodyDecl) (stage : Stage) :
    InStep ρ (c.requestBody decl stage) (c'.requestBody decl stage) := by
  unfold requestBody
  cases decl with
  | none => exact .pure rfl
  | some body =>
    refine (Parallel.ofExcept (.refl _)).andThen fun _ => ?_
    simp only [(twins .query).graph.isBytes_eq]
    refine .guard (.throw _) (((twins stage.visibility).convert_parallel body.type _ [] rfl).andThen
      fun s => ?_)
    cases s with
    | none =>
      simp only
      split
      · exact .pure rfl
      · exact .throw _
    | some s => exact .pure rfl

theorem request_parallel (host : List NamedSchema) (operation : Operation) (stage : Stage) :
    InStep ρ (c.request host operation stage) (c'.request host operation stage) := by
  unfold request
  refine (Parallel.foldlM (fun r r' p same => ?_) operation.parameters rfl).andThen fun r => ?_
  · subst same
    exact addParameter_parallel twins r p
  · exact (requestBody_parallel twins operation.body stage).andThen fun _ => .pure rfl

end Requests

section Responses

variable {c c' : Converter} (twins : ∀ v, Counterparts v ρ c c')
include twins

theorem placeSuccess_parallel (b : Buckets) (code : Nat) (response : Response)
    (type : Option TypeRef) :
    InStep ρ (c.placeSuccess b code response type) (c'.placeSuccess b code response type) := by
  unfold placeSuccess
  split
  · exact .pure rfl
  split
  · exact .pure rfl
  · exact (Parallel.report (twins .read).target ..).andThen fun _ => .pure rfl

theorem keepFirst_parallel (slot : Option Response) (response : Response) (code : DiagnosticCode) :
    InStep ρ (c.keepFirst slot response code) (c'.keepFirst slot response code) := by
  unfold keepFirst
  split
  · exact (Parallel.report (twins .read).target ..).andThen fun _ => .pure rfl
  · exact .pure rfl

theorem place_parallel (b : Buckets) (status : StatusClass) (response : Response)
    (type : Option TypeRef) :
    InStep ρ (c.place b status response type) (c'.place b status response type) := by
  cases status with
  | success code => exact placeSuccess_parallel twins b code response type
  | error code => exact .pure rfl
  | _ => exact (keepFirst_parallel twins ..).andThen fun _ => .pure rfl

theorem responseBody_parallel (b : Buckets) (status : StatusClass) (decl : ResponseDecl)
    (text : String) :
    InStep ρ (c.responseBody b status decl text) (c'.responseBody b status decl text) := by
  unfold responseBody
  rw [(twins .read).graph.schema?_eq]
  split
  · exact .ofExcept (.refl _)
  split
  · exact .pure rfl
  split
  · exact .pure rfl
  · exact (twins .read).convert_parallel _ _ [] rfl

theorem addClassified_parallel (b : Buckets) (seen : SeenTypes) (decl : ResponseDecl)
    (text : String) (status : StatusClass) :
    InStep ρ (c.addClassified b seen decl text status)
      (c'.addClassified b seen decl text status) := by
  have isBytes : Content.isBytes c'.graph = Content.isBytes c.graph :=
    funext (twins .read).graph.isBytes_eq
  unfold addClassified
  rw [isBytes]
  refine .guard (.report (twins .read).target ..)
    ((Parallel.ofExcept (.refl _)).andThen fun _ => ?_)
  refine .guard (.throw _) ((responseBody_parallel twins b status decl text).andThen fun s => ?_)
  exact (place_parallel twins b status _ decl.type).andThen fun _ => .pure rfl

theorem addResponse_parallel (state : Buckets × SeenTypes) (decl : ResponseDecl) :
    InStep ρ (c.addResponse state decl) (c'.addResponse state decl) := by
  unfold addResponse
  split
  · exact (Parallel.report (twins .read).target ..).andThen fun _ => .pure rfl
  split
  · exact (Parallel.report (twins .read).target ..).andThen fun _ => .pure rfl
  · exact addClassified_parallel twins ..

theorem responses_parallel (operation : Operation) :
    InStep ρ (c.responses operation) (c'.responses operation) := by
  refine (Parallel.foldlM (fun state state' decl same => ?_) operation.responses rfl).andThen
    fun state => .pure rfl
  subst same
  exact addResponse_parallel twins state decl

end Responses

/-- A pass starts from an empty table, in which there is nothing to renumber. -/
theorem asPass_parallel {α : Type} {x y : ConvertM α} (inStep : InStep ρ x y)
    (failed : ConvertError → OperationError) :
    Parallel id (fun r r' => r' = (r.1, r.2.renumber ρ)) (x.asPass failed) (y.asPass failed) := by
  have run (x : ConvertM α) (ds : Diagnostics) : outcome (x.asPass failed) ds =
      match outcome x ⟨{}, ds⟩ with
      | (.ok a, gathered) => (.ok (a, gathered.classes), gathered.diagnostics)
      | (.error e, gathered) => (.error (failed e), gathered.diagnostics) := rfl
  have both (ds : Diagnostics) :
      Match (fun r r' => r' = (r.1, r.2.renumber ρ)) (outcome (x.asPass failed) ds).1
        (outcome (y.asPass failed) ds).1 ∧
      (outcome (y.asPass failed) ds).2 = (outcome (x.asPass failed) ds).2 := by
    have results := inStep.results ⟨{}, ds⟩
    have states := inStep.states ⟨{}, ds⟩
    change Match Eq _ (outcome y ⟨{}, ds⟩).1 at results
    change (outcome y ⟨{}, ds⟩).2 = _ at states
    rw [run, run]
    revert results states
    rcases outcome x ⟨{}, ds⟩ with ⟨result, g⟩
    rcases outcome y ⟨{}, ds⟩ with ⟨result', g'⟩
    rintro (⟨rfl⟩ | _) rfl
    · exact ⟨.ok rfl, rfl⟩
    · exact ⟨.error, rfl⟩
  exact ⟨fun ds => (both ds).1, fun ds => (both ds).2⟩

section Operations

variable (agree : ∀ v, Agree v ρ graph graph')
include agree

theorem ofOperation_parallel (operation : Operation) (operationId : String) :
    Parallel id (fun a a' => a.graph = graph ∧ a' = { a with graph := graph' })
      (Assembler.ofOperation graph operation operationId)
      (Assembler.ofOperation graph' operation operationId) := by
  have twins (v : Visibility) : Counterparts v ρ ⟨graph, operationId⟩ ⟨graph', operationId⟩ :=
    ⟨agree v, rfl⟩
  refine (asPass_parallel (hostParameters_parallel twins) _).bind fun ⟨host, t⟩ _ same => ?_
  subst same
  simp only [(agree .read).finalize_eq, ClassTable.nameOf_renumber]
  exact .pure ⟨rfl, rfl⟩

theorem assemble_parallel {a : Assembler} (known : a.graph = graph) (stage : Stage) :
    Parallel id Eq (a.assemble stage) (Assembler.assemble { a with graph := graph' } stage) := by
  subst known
  have twins (v : Visibility) : Counterparts v ρ a.converter
      (Assembler.converter { a with graph := graph' }) := ⟨agree v, rfl⟩
  have request : Parallel id Eq (a.request stage)
      (Assembler.request { a with graph := graph' } stage) := by
    refine (asPass_parallel (request_parallel twins a.host a.operation stage) _).bind
      fun ⟨r, t⟩ _ same => ?_
    subst same
    simp only [(agree .read).finalize_eq, ClassTable.nameOf_renumber,
      ClassTable.definitions_renumber]
    exact .pure rfl
  have responses : Parallel id Eq (a.responses stage)
      (Assembler.responses { a with graph := graph' } stage) := by
    refine (asPass_parallel (responses_parallel twins a.operation) _).bind fun ⟨r, t⟩ _ same => ?_
    subst same
    simp only [(agree .read).finalize_eq, ClassTable.nameOf_renumber,
      ClassTable.definitions_renumber]
    exact .pure rfl
  exact request.andThen fun r => responses.andThen fun rs => .pure rfl

theorem convertOperation_parallel (item : PathItem) (operation : Operation) :
    Parallel id Eq (graph.convertOperation item operation)
      (graph'.convertOperation item operation) := by
  unfold TypeGraph.convertOperation
  simp only
  cases Stage.ofVerb operation.verb with
  | nil => exact .refl _
  | cons first rest =>
    refine (ofOperation_parallel agree operation _).bind fun a a' related => ?_
    obtain ⟨known, rfl⟩ := related
    rw [(agree .read).pageable?_eq]
    refine (Parallel.foldlM (fun v v' stage same => ?_) (first :: rest) rfl).andThen
      fun operations => .pure rfl
    subst same
    exact (assemble_parallel agree known stage).andThen fun schema => .pure rfl

theorem findOperation_parallel (search : ResourceOperations.Search) (operation : Operation) :
    Parallel id Eq (ResourceOperations.findOperation graph search operation)
      (ResourceOperations.findOperation graph' search operation) := by
  unfold ResourceOperations.findOperation
  split
  · exact .pure rfl
  · exact (convertOperation_parallel agree _ operation).andThen fun item => .pure rfl

theorem ofIds_parallel (operations : graph'.operations = graph.operations) (ids : List String) :
    Parallel id Eq (ResourceOperations.ofIds graph ids) (ResourceOperations.ofIds graph' ids) := by
  unfold ResourceOperations.ofIds
  rw [operations]
  refine (Parallel.foldlM (fun search search' operation same => ?_) graph.operations rfl).andThen
    fun search => ?_
  · subst same
    exact findOperation_parallel agree search operation
  · have version : graph'.apiVersion = graph.apiVersion := by
      rw [TypeGraph.apiVersion, (agree .read).service, TypeGraph.apiVersion]
    rw [version]
    exact .pure rfl

end Operations
end WireSchema
