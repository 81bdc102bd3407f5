import WireSchema.Proofs.Independence
import WireSchema.Emission

/-! Whether what is listed can be fetched. A list has every version of a resource, and a graph that
declares no version goes under a word of its own. To fetch, the first graph that declares the
version is taken, so neither a graph without one nor a second one of that version is searched. What
is found can be written unless a request has no name for what the parameters of the host refer
to. -/
namespace WireSchema

open ConvertM

namespace ResourceEntry

/-- The resources of some graphs have this one in this version. -/
def Lists (graphs : List TypeGraph) (id version : String) : Prop :=
  ∃ e ∈ list graphs, e.id = id ∧ ∃ r ∈ e.versions, r.version = version

theorem lists_iff {graphs : List TypeGraph} {id version : String} : Lists graphs id version ↔
    ∃ graph ∈ graphs, graph.apiVersion = version ∧ ∃ o ∈ graph.operations, o.resourceId = id := by
  constructor
  · rintro ⟨e, member, rfl, r, inside, rfl⟩
    exact (mem_map_version member).mp (List.mem_map_of_mem inside)
  · rintro ⟨graph, there, labelled, o, inside, its⟩
    obtain ⟨e, member, rfl⟩ := List.mem_map.mp (mem_map_id_list.mpr ⟨graph, there, o, inside, its⟩)
    have listed := (mem_map_version member).mpr ⟨graph, there, labelled, o, inside, its⟩
    obtain ⟨r, inside, same⟩ := List.mem_map.mp listed
    exact ⟨e, member, rfl, r, inside, same⟩

end ResourceEntry

/-- A graph has an operation of a resource for which something is emitted. -/
def TypeGraph.Offers (graph : TypeGraph) (id : String) : Prop :=
  ∃ o ∈ graph.operations, o.resourceId = id ∧ Stage.ofVerb o.verb ≠ []

namespace TypeGraph

variable {graph : TypeGraph} {o : Operation}

theorem succeeds_of_unstaged (unstaged : Stage.ofVerb o.verb = []) : graph.Succeeds o := by
  unfold Succeeds
  rw [convertOperation_unstaged unstaged]
  exact ⟨_, _, rfl⟩

theorem extend_isEmpty (works : graph.Succeeds o) (item : PathItem) :
    (graph.extend item o).isEmpty = (item.isEmpty && (Stage.ofVerb o.verb).isEmpty) := by
  unfold extend
  by_cases staged : Stage.ofVerb o.verb = []
  · simp [staged]
  · obtain ⟨_, _, run⟩ := works
    rw [convertOperation_staged staged] at run
    obtain ⟨v, _, made, -⟩ := yields_bind.mp run
    rw [if_neg staged, converted?_of_yields made]
    have filled : (item.put o.verb v).isEmpty = false := by
      have there := OrderedMap.mem_of_get? (OrderedMap.get?_put_self item o.verb v)
      exact List.isEmpty_eq_false_iff.mpr (List.ne_nil_of_mem there)
    simpa [filled] using fun _ => staged

end TypeGraph

namespace ResourceOperations

variable {graph : TypeGraph} {id : String}

/-- Something is found of a resource if one of its operations has a stage. -/
theorem found_isEmpty_iff
    (works : ∀ o ∈ graph.operations, o.resourceId = id → graph.Succeeds o) :
    (found graph id).item.isEmpty ↔ ¬ graph.Offers id := by
  have fold (operations : List Operation) (works : ∀ o ∈ operations, graph.Succeeds o)
      (found : Found) : (operations.foldl (Found.add graph) found).item.isEmpty ↔
        found.item.isEmpty ∧ ∀ o ∈ operations, Stage.ofVerb o.verb = [] := by
    induction operations generalizing found with
    | nil => simp
    | cons o rest ih =>
      rw [List.forall_mem_cons] at works
      have added : (Found.add graph found o).item.isEmpty ↔
          found.item.isEmpty ∧ Stage.ofVerb o.verb = [] := by
        simp [Found.add, TypeGraph.extend_isEmpty works.1]
      rw [List.foldl_cons, ih works.2, added, List.forall_mem_cons, and_assoc]
  have each : ∀ o ∈ graph.operations.filter (·.resourceId = id), graph.Succeeds o := by
    intro o member
    obtain ⟨member, its⟩ := List.mem_filter.mp member
    exact works o member (of_decide_eq_true its)
  unfold TypeGraph.Offers
  rw [ResourceOperations.found, fold _ each]
  simp [OrderedMap.isEmpty, OrderedMap.empty]

end ResourceOperations

theorem VerbOperations.isSome_json?_iff (v : VerbOperations) : v.json?.isSome ↔
    ∀ stage schema, v.stage? stage = some schema → schema.json?.isSome := by
  have part (key : String) (part : Option OperationSchema) :
      (partField? key part OperationSchema.json?).isSome ↔
        ∀ schema, part = some schema → schema.json?.isSome := by
    cases part with
    | none => simp [partField?]
    | some schema =>
      rw [partField?, isSome_part]
      simp
  rw [VerbOperations.json?, isSome_bind fun _ => isSome_bind fun _ => isSome_part]
  simp only [Bool.and_eq_true, part]
  constructor
  · rintro ⟨read, create, update⟩ stage
    cases stage with
    | read => exact read
    | create => exact create
    | update => exact update
  · exact fun each => ⟨each .read, each .create, each .update⟩

theorem PathItem.isSome_json?_iff (item : PathItem) : item.json?.isSome ↔
    ∀ verb v, item.get? verb = some v → v.json?.isSome := by
  have entry : item.json?.isSome ↔ ∀ e ∈ item.entries, e.2.json?.isSome := by
    rw [PathItem.json?, isSome_part, isSome_mapM_iff]
    simp only [isSome_part]
  rw [entry]
  exact ⟨fun each verb v there => each _ (OrderedMap.mem_of_get? there),
    fun each e member => each e.1 e.2 (OrderedMap.get?_of_mem member)⟩

theorem PathItem.isSome_json?_of_isEmpty {item : PathItem} (nothing : item.isEmpty) :
    item.json?.isSome := by
  refine item.isSome_json?_iff.mpr fun verb v there => ?_
  have member := OrderedMap.mem_of_get? there
  rw [List.isEmpty_iff.mp nothing] at member
  cases member

/-- In no stage of an operation do the parameters of the host refer to a class that the request does
not share. -/
def TypeGraph.SharesHost (graph : TypeGraph) (o : Operation) : Prop :=
  ∀ a prepared,
    Yields (Assembler.ofOperation graph o (Naming.operationId o.container o.name)) [] a prepared →
    ∀ stage ∈ Stage.ofVerb o.verb, ∀ schema reports, Yields (a.assemble stage) [] schema reports →
      ∀ p : Passes graph o (Naming.operationId o.container o.name) stage schema, p.HostShared

theorem TypeGraph.sharesHost_of_serverless {graph : TypeGraph}
    (serverless : graph.service.server = none) (o : Operation) : graph.SharesHost o := by
  intro _ _ _ _ _ _ _ _ p slot mentioned
  obtain ⟨_, _, run⟩ := p.host_run
  rw [Converter.hostParameters, serverless] at run
  rw [← (yields_pure.mp run).1] at mentioned
  cases mentioned

/-- What an operation is converted to can be written exactly if it shares what the parameters of the
host refer to. -/
theorem Converts.isSome_json?_iff {graph : TypeGraph} {o : Operation} {v : VerbOperations}
    (converts : Converts graph o v) : v.json?.isSome ↔ graph.SharesHost o := by
  obtain ⟨a, ds, ds', made, stages⟩ := converts.stages
  rw [converts.operationId] at made
  have repeatable :=
    Assembler.ofOperation_repeatable graph o (Naming.operationId o.container o.name)
  rw [v.isSome_json?_iff]
  constructor
  · intro written a' prepared made' stage member schema reports assembled p
    obtain rfl := repeatable.eq made made'
    obtain ⟨schema', _, _, put, assembled'⟩ := stages stage member
    obtain rfl := (a.assemble_repeatable stage).eq assembled' assembled
    exact p.isSome_json?_iff.mp (written stage schema' put)
  · intro shared stage schema put
    by_cases member : stage ∈ Stage.ofVerb o.verb
    · obtain ⟨schema', ds₁, ds₂, put', assembled⟩ := stages stage member
      obtain rfl := Option.some.inj (put'.symm.trans put)
      obtain ⟨_, made⟩ := repeatable.yields made []
      obtain ⟨_, assembled⟩ := (a.assemble_repeatable stage).yields assembled []
      obtain ⟨p⟩ := passes_of_assembled made assembled
      exact p.isSome_json?_iff.mpr (shared a _ made stage member schema' _ assembled p)
    · rw [converts.others stage member] at put
      cases put

namespace ResourceOperations

variable {graph : TypeGraph} {id : String}

theorem get?_unstaged {verb : Verb} (unstaged : Stage.ofVerb verb = [])
    (operations : List Operation) (found : Found) :
    (operations.foldl (Found.add graph) found).item.get? verb = found.item.get? verb := by
  induction operations generalizing found with
  | nil => rfl
  | cons o rest ih =>
    have added : (graph.extend found.item o).get? verb = found.item.get? verb := by
      unfold TypeGraph.extend
      by_cases its : Stage.ofVerb o.verb = []
      · rw [if_pos its]
      · have other : verb ≠ o.verb := by
          rintro rfl
          exact its unstaged
        rw [if_neg its]
        cases graph.converted? o with
        | none => rfl
        | some v => exact OrderedMap.get?_put_other _ other v
    exact (ih _).trans added

theorem keeps_found {ds ds' : Diagnostics} {out : List ResourceOperations}
    (run : Yields (ofIds graph [id]) ds out ds') :
    Keeps graph graph.operations id (found graph id).item := by
  obtain ⟨search, _, searched, -⟩ := yields_bind.mp run
  have entered := (findAll_spec searched).2 id
  rw [get?_ofIds, if_pos List.mem_cons_self] at entered
  exact (searched_ofIds.findAll searched).1.kept id _ entered

/-- What is found of a resource can be written exactly if the last operation of each verb shares
what the parameters of the host refer to. -/
theorem isSome_json?_found {ds ds' : Diagnostics} {out : List ResourceOperations}
    (run : Yields (ofIds graph [id]) ds out ds') : (found graph id).item.json?.isSome ↔
      ∀ verb last, (operationsAt graph.operations id verb).getLast? = some last →
        graph.SharesHost last := by
  have keeps := keeps_found run
  rw [PathItem.isSome_json?_iff]
  constructor
  · intro written verb last latest
    by_cases staged : Stage.ofVerb verb = []
    · obtain ⟨-, here⟩ := List.mem_filter.mp (List.mem_of_getLast? latest)
      have its : last.verb = verb := (of_decide_eq_true here).2
      intro _ _ _ stage member
      rw [its, staged] at member
      cases member
    · have kept := keeps verb staged
      rw [latest] at kept
      cases there : (found graph id).item.get? verb with
      | none =>
        rw [there] at kept
        cases kept
      | some v =>
        rw [there] at kept
        cases kept with
        | some converts => exact converts.isSome_json?_iff.mp (written verb v there)
  · intro shared verb v there
    by_cases staged : Stage.ofVerb verb = []
    · rw [found, get?_unstaged staged] at there
      cases there
    · have kept := keeps verb staged
      rw [there] at kept
      cases latest : (operationsAt graph.operations id verb).getLast? with
      | none =>
        rw [latest] at kept
        cases kept
      | some last =>
        rw [latest] at kept
        cases kept with
        | some converts => exact converts.isSome_json?_iff.mpr (shared verb last latest)

end ResourceOperations

namespace Emission

def resourceFile (items : List Json) : OutputFile :=
  ⟨"resources_operations.json", (Json.array items).pretty⟩

/-- What comes out for one resource in one version. -/
def fetch (graphs : List TypeGraph) (id version : String) (ds : Diagnostics) :
    Except EmitError (List OutputFile) :=
  (outcome (files graphs (.operations (some version) [id])) ds).1

variable {graphs : List TypeGraph} {graph : TypeGraph} {id version : String} {ds : Diagnostics}

/-- The graph in which a version is searched: the first that declares it. -/
def searched? (graphs : List TypeGraph) (version : String) : Option TypeGraph :=
  graphs.find? (·.service.apiVersion == some version)

theorem mem_of_searched (first : searched? graphs version = some graph) :
    graph ∈ graphs ∧ graph.apiVersion = version := by
  have declares := List.find?_some first
  refine ⟨List.mem_of_find?_eq_some first, ?_⟩
  rw [TypeGraph.apiVersion, eq_of_beq declares]
  rfl

theorem searched_eq_none_iff :
    searched? graphs version = none ↔ ∀ g ∈ graphs, g.service.apiVersion ≠ some version := by
  simp [searched?]

/-- A label that no graph declares is the word for graphs without a version. -/
theorem unversioned_of_undeclared (member : graph ∈ graphs) (labelled : graph.apiVersion = version)
    (undeclared : ∀ g ∈ graphs, g.service.apiVersion ≠ some version) : version = "unversioned" := by
  unfold TypeGraph.apiVersion at labelled
  cases declared : graph.service.apiVersion with
  | none => simpa [declared] using labelled.symm
  | some v =>
    rw [declared] at labelled
    exact absurd (declared.trans (congrArg some labelled)) (undeclared graph member)

theorem fetch_eq (graphs : List TypeGraph) (id version : String) (ds : Diagnostics) :
    fetch graphs id version ds =
      match searched? graphs version with
      | none => .error (.unknownApiVersion version)
      | some graph =>
        match (outcome (ResourceOperations.ofIds graph [id]) ds).1 with
        | .error cause => .error (.operation cause)
        | .ok found =>
          match found.mapM ResourceOperations.json? with
          | none => .error .unnamedReference
          | some items => .ok [resourceFile items] := by
  have selected : select graphs (some version) =
      match searched? graphs version with
      | none => .error (.unknownApiVersion version)
      | some graph => .ok (some graph) := by
    simp only [select, searched?]
    cases graphs.find? (·.service.apiVersion == some version) <;> rfl
  simp only [fetch, files, outcome_bind, selected]
  cases searched? graphs version with
  | none => rfl
  | some graph =>
    have adapted : outcome (operationsOf (some graph) [id]) ds =
        ((outcome (ResourceOperations.ofIds graph [id]) ds).1.mapError .operation,
          (outcome (ResourceOperations.ofIds graph [id]) ds).2) := rfl
    have chosen : outcome (MonadExcept.ofExcept (.ok (some graph)) : EmitM _) ds =
        (.ok (some graph), ds) := rfl
    simp only [chosen, adapted]
    cases (outcome (ResourceOperations.ofIds graph [id]) ds).1 with
    | error cause => rfl
    | ok found =>
      have kept : (Except.ok found).mapError EmitError.operation = .ok found := rfl
      simp only [kept]
      cases found.mapM ResourceOperations.json? <;> rfl

/-- A file without an entry differs from one with an entry. -/
theorem resourceFile_ne_nil (item : Json) : resourceFile [item] ≠ resourceFile [] := by
  intro same
  have texts := congrArg (fun f => f.content.toList.length) same
  simp [resourceFile, Json.pretty, Json.prettyAt, Json.prettyItems, Json.bracketed,
    Json.lineBreak] at texts

/-- What is to be expected of a resource that is listed in a version. -/
structure Promised (graphs : List TypeGraph) (id version : String) (ds : Diagnostics) : Prop where
  /-- An operation fails, or the resource is there, or none of its operations has a stage. -/
  answered : (∃ cause, fetch graphs id version ds = .error (.operation cause)) ∨
    (∃ r item, r.id = id ∧ r.version = version ∧ ResourceOperations.json? r = some item ∧
      fetch graphs id version ds = .ok [resourceFile [item]]) ∨
    ∀ g ∈ graphs, g.apiVersion = version → ¬ g.Offers id
  known : ∀ v, fetch graphs id version ds ≠ .error (.unknownApiVersion v)
  filled : (∃ g ∈ graphs, g.apiVersion = version ∧ g.Offers id) →
    fetch graphs id version ds ≠ .ok [resourceFile []]

theorem fetch_cases (first : searched? graphs version = some graph) (id : String)
    (ds : Diagnostics) :
    (¬ graph.Offers id ∧ fetch graphs id version ds = .ok [resourceFile []]) ∨
    graph.Offers id ∧
      ((∃ cause, fetch graphs id version ds = .error (.operation cause)) ∨
        fetch graphs id version ds = .error .unnamedReference ∨
        ∃ r item, r.id = id ∧ r.version = version ∧ ResourceOperations.json? r = some item ∧
          fetch graphs id version ds = .ok [resourceFile [item]]) := by
  have labelled := (mem_of_searched first).2
  have succeeds := ResourceOperations.ofIds_succeeds_iff graph [id] ds
  simp only [List.mem_singleton] at succeeds
  rw [fetch_eq, first]
  simp only
  rcases result : outcome (ResourceOperations.ofIds graph [id]) ds with ⟨cause | out, ds'⟩
  · have offers : graph.Offers id := by
      refine Classical.byContradiction fun unstaged => ?_
      obtain ⟨out, ds₁, run⟩ := succeeds.mpr fun o member its =>
        TypeGraph.succeeds_of_unstaged (Classical.byContradiction fun staged =>
          unstaged ⟨o, member, its, staged⟩)
      cases result.symm.trans run
    exact .inr ⟨offers, .inl ⟨cause, rfl⟩⟩
  · have empty := ResourceOperations.found_isEmpty_iff (succeeds.mp ⟨out, ds', result⟩)
    have single := ResourceOperations.eq_alone result
    rw [ResourceOperations.alone] at single
    by_cases offers : graph.Offers id
    · rw [if_neg (fun nothing => empty.mp nothing offers)] at single
      obtain ⟨r, its, of_version, rfl⟩ : ∃ r : ResourceOperations,
          r.id = id ∧ r.version = version ∧ out = [r] := ⟨_, rfl, labelled, single⟩
      cases written : r.json? with
      | none => exact .inr ⟨offers, .inr (.inl (by simp [written]))⟩
      | some item =>
        exact .inr ⟨offers, .inr (.inr ⟨r, item, its, of_version, written, by simp [written]⟩)⟩
    · rw [if_pos (empty.mpr offers)] at single
      subst single
      exact .inl ⟨offers, rfl⟩

/-- References without a name are found in the end exactly if all operations of the resource can be
converted, and the last one of some verb does not share what the parameters of the host refer to. -/
theorem fetch_ne_unnamed_iff (first : searched? graphs version = some graph) (id : String)
    (ds : Diagnostics) : fetch graphs id version ds ≠ .error .unnamedReference ↔
      (∃ o ∈ graph.operations, o.resourceId = id ∧ ¬ graph.Succeeds o) ∨
        ∀ verb last, (operationsAt graph.operations id verb).getLast? = some last →
          graph.SharesHost last := by
  have succeeds := ResourceOperations.ofIds_succeeds_iff graph [id] ds
  simp only [List.mem_singleton] at succeeds
  rw [fetch_eq, first]
  simp only
  rcases result : outcome (ResourceOperations.ofIds graph [id]) ds with ⟨cause | out, ds'⟩
  · refine iff_of_true (by simp) (.inl (Classical.byContradiction fun nowhere => ?_))
    obtain ⟨out, ds₁, run⟩ := succeeds.mpr fun o member its =>
      Classical.byContradiction fun fails => nowhere ⟨o, member, its, fails⟩
    cases result.symm.trans run
  · have works := succeeds.mp ⟨out, ds', result⟩
    have none_fails : ¬ ∃ o ∈ graph.operations, o.resourceId = id ∧ ¬ graph.Succeeds o :=
      fun ⟨o, member, its, fails⟩ => fails (works o member its)
    rw [or_iff_right none_fails, ← ResourceOperations.isSome_json?_found result]
    have written : (out.mapM ResourceOperations.json?).isSome ↔
        (ResourceOperations.found graph id).item.json?.isSome := by
      rw [isSome_mapM_iff, ResourceOperations.eq_alone result, ResourceOperations.alone]
      split
      next nothing => simp [PathItem.isSome_json?_of_isEmpty nothing]
      next => rw [List.forall_mem_singleton, ResourceOperations.json?, isSome_part]
    rw [← written]
    dsimp only
    cases out.mapM ResourceOperations.json? <;> simp

/-- A version that is listed may have no graph that declares it, and then it goes under the word for
graphs without a version. Otherwise the resource is fetched as can be expected exactly if the first
graph that declares the version has an operation of the resource with a stage, or no other graph of
that version has one either, and, unless an operation fails, the last operation of each verb shares
what the parameters of the host refer to. -/
theorem listed_is_fetched_iff (listed : ResourceEntry.Lists graphs id version) (ds : Diagnostics) :
    ((∃ v, fetch graphs id version ds = .error (.unknownApiVersion v)) ↔
      version = "unversioned" ∧ ∀ g ∈ graphs, g.service.apiVersion ≠ some "unversioned") ∧
    (Promised graphs id version ds ↔
      ∃ graph, searched? graphs version = some graph ∧
        (graph.Offers id ∨ ∀ g ∈ graphs, g.apiVersion = version → ¬ g.Offers id) ∧
        ((∃ o ∈ graph.operations, o.resourceId = id ∧ ¬ graph.Succeeds o) ∨
          ∀ verb last, (operationsAt graph.operations id verb).getLast? = some last →
            graph.SharesHost last)) := by
  obtain ⟨g, member, labelled, -⟩ := ResourceEntry.lists_iff.mp listed
  cases first : searched? graphs version with
  | none =>
    have undeclared := searched_eq_none_iff.mp first
    have word := unversioned_of_undeclared member labelled undeclared
    have unknown : fetch graphs id version ds = .error (.unknownApiVersion version) := by
      rw [fetch_eq, first]
    refine ⟨iff_of_true ⟨version, unknown⟩ ⟨word, word ▸ undeclared⟩, ?_⟩
    exact iff_of_false (fun promised => promised.known version unknown) (by simp)
  | some graph =>
    obtain ⟨searched, of_version⟩ := mem_of_searched first
    have declared : ¬ (version = "unversioned" ∧
        ∀ g ∈ graphs, g.service.apiVersion ≠ some "unversioned") := by
      rintro ⟨rfl, undeclared⟩
      cases first.symm.trans (searched_eq_none_iff.mpr undeclared)
    simp only [Option.some.injEq, exists_eq_left', ← fetch_ne_unnamed_iff first id ds]
    rcases fetch_cases first id ds with ⟨absent, fetched⟩ |
      ⟨offers, ⟨cause, fetched⟩ | fetched | ⟨r, item, its, right, written, fetched⟩⟩
    all_goals refine ⟨iff_of_false (by simp [fetched]) declared, ?_⟩
    · constructor
      · intro promised
        exact ⟨.inr fun g member of_version offers =>
          promised.filled ⟨g, member, of_version, offers⟩ fetched, by simp [fetched]⟩
      · rintro ⟨offers | nowhere, -⟩
        · exact absurd offers absent
        · exact ⟨.inr (.inr nowhere), by simp [fetched],
            fun ⟨g, member, of_version, offers⟩ => absurd offers (nowhere g member of_version)⟩
    · exact iff_of_true ⟨.inl ⟨cause, fetched⟩, by simp [fetched], by simp [fetched]⟩
        ⟨.inl offers, by simp [fetched]⟩
    · refine iff_of_false (fun promised => ?_) (by simp [fetched])
      rcases promised.answered with ⟨cause, failed⟩ | ⟨r, item, -, -, -, found⟩ | nowhere
      · simp [fetched] at failed
      · simp [fetched] at found
      · exact nowhere graph searched of_version offers
    · have filled : fetch graphs id version ds ≠ .ok [resourceFile []] := by
        simpa [fetched] using resourceFile_ne_nil item
      exact iff_of_true ⟨.inr (.inl ⟨r, item, its, right, written, fetched⟩),
        by simp [fetched], fun _ => filled⟩ ⟨.inl offers, by simp [fetched]⟩

def editions : List TypeGraph := [
  { version := "1"
    service := { apiVersion := some "2024-01-01" }
    operations := [{ name := "get", verb := .get, path := "/widgets" }] },
  { version := "1"
    service := { apiVersion := some "2025-01-01" }
    operations := [
      { name := "get", verb := .get, path := "/widgets" },
      { name := "delete", verb := .delete, path := "/widgets" }] }]

theorem editions_fetched : ResourceEntry.Lists editions "/widgets" "2025-01-01" ∧
    Promised editions "/widgets" "2025-01-01" [] := by
  have listed : ResourceEntry.Lists editions "/widgets" "2025-01-01" :=
    ResourceEntry.lists_iff.mpr ⟨_, .tail _ (.head _), rfl, _, .head _, by decide +kernel⟩
  exact ⟨listed, (listed_is_fetched_iff listed []).2.mpr
    ⟨_, rfl, .inl ⟨_, .head _, by decide +kernel, by decide⟩,
      .inr fun _ last _ => TypeGraph.sharesHost_of_serverless rfl last⟩⟩

/-- Widgets of a service that declares no version. -/
def undated : TypeGraph where
  version := "1"
  operations := [{ name := "get", verb := .get, path := "/widgets" }]

/-- The word under which they are listed is not known when they are fetched. -/
theorem undated_not_fetched : ResourceEntry.Lists [undated] "/widgets" "unversioned" ∧
    undated.Offers "/widgets" ∧
    fetch [undated] "/widgets" "unversioned" [] = .error (.unknownApiVersion "unversioned") ∧
    ¬ Promised [undated] "/widgets" "unversioned" [] := by
  refine ⟨?_, ⟨_, .head _, by decide +kernel, by decide⟩, rfl, fun promised => ?_⟩
  · exact ResourceEntry.lists_iff.mpr ⟨_, .head _, rfl, _, .head _, by decide +kernel⟩
  · exact promised.known "unversioned" rfl

end Emission
end WireSchema
