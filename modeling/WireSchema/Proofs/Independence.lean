import WireSchema.Proofs.Listing
import WireSchema.Proofs.Resources
import WireSchema.Proofs.Steadiness

/-! Resources do not get in each other's way. A search goes through all operations once, but what it
finds of a resource comes from the operations of that resource alone, so several resources together
are the single ones next to each other. -/
namespace WireSchema

open ConvertM

namespace TypeGraph

variable {graph : TypeGraph} {o : Operation} {item item' : PathItem} {ds ds' : Diagnostics}

theorem verbOperations_repeatable (graph : TypeGraph) (o : Operation) :
    Repeatable (graph.verbOperations o) := by
  refine (Assembler.ofOperation_repeatable ..).bind fun assembler => ?_
  refine .foldlM (fun v stage => ?_) (Stage.ofVerb o.verb) _
  exact (assembler.assemble_repeatable stage).bind fun _ => .pure _

theorem convertOperation_repeatable (graph : TypeGraph) (item : PathItem) (o : Operation) :
    Repeatable (graph.convertOperation item o) := by
  by_cases staged : Stage.ofVerb o.verb = []
  · rw [convertOperation_unstaged staged]
    exact .bind ⟨.ok (), [_], fun _ => rfl⟩ fun _ => .pure _
  · rw [convertOperation_staged staged]
    exact (graph.verbOperations_repeatable o).bind fun _ => .pure _

/-- Whether an operation can be converted at all. -/
def Succeeds (graph : TypeGraph) (o : Operation) : Prop :=
  ∃ item ds', Yields (graph.convertOperation .empty o) [] item ds'

/-- What was found or reported before does not keep an operation from being converted. -/
theorem succeeds_iff (graph : TypeGraph) (o : Operation) (item : PathItem) (ds : Diagnostics) :
    (∃ item' ds', Yields (graph.convertOperation item o) ds item' ds') ↔ graph.Succeeds o := by
  constructor
  · rintro ⟨item', ds', run⟩
    obtain ⟨alone, run⟩ := convertOperation_reports run .empty
    exact ⟨alone, (graph.convertOperation_repeatable .empty o).yields run []⟩
  · rintro ⟨alone, ds', run⟩
    obtain ⟨_, run⟩ := (graph.convertOperation_repeatable .empty o).yields run ds
    obtain ⟨item', run⟩ := convertOperation_reports run item
    exact ⟨item', _, run⟩

def converted? (graph : TypeGraph) (o : Operation) : Option VerbOperations :=
  (outcome (graph.verbOperations o) []).1.toOption

theorem converted?_of_yields {v : VerbOperations} (run : Yields (graph.verbOperations o) ds v ds') :
    graph.converted? o = some v := by
  obtain ⟨_, run⟩ := (graph.verbOperations_repeatable o).yields run []
  rw [converted?, run]
  rfl

def extend (graph : TypeGraph) (item : PathItem) (o : Operation) : PathItem :=
  if Stage.ofVerb o.verb = [] then item else (graph.converted? o).elim item (item.put o.verb)

theorem eq_extend (run : Yields (graph.convertOperation item o) ds item' ds') :
    item' = graph.extend item o := by
  unfold extend
  by_cases staged : Stage.ofVerb o.verb = []
  · rw [convertOperation_unstaged staged] at run
    obtain ⟨_, _, _, kept⟩ := yields_bind.mp run
    rw [if_pos staged]
    exact (yields_pure.mp kept).1.symm
  · rw [convertOperation_staged staged] at run
    obtain ⟨v, _, made, put⟩ := yields_bind.mp run
    rw [if_neg staged, converted?_of_yields made]
    exact (yields_pure.mp put).1.symm

end TypeGraph

namespace ResourceOperations

variable {graph : TypeGraph} {search search' : Search} {o : Operation} {operations : List Operation}
  {ids : List String} {out : List ResourceOperations} {ds ds' : Diagnostics}

def Found.add (graph : TypeGraph) (found : Found) (o : Operation) : Found where
  path := if found.path.isEmpty then o.route else found.path
  item := graph.extend found.item o

/-- What is found of a resource in its own operations. -/
def found (graph : TypeGraph) (id : String) : Found :=
  (graph.operations.filter (·.resourceId = id)).foldl (Found.add graph) {}

/-- A resource by itself; nothing if it has no operations. -/
def alone (graph : TypeGraph) (id : String) : List ResourceOperations :=
  let found := found graph id
  if found.item.isEmpty then []
  else [{ id, path := found.path, version := graph.apiVersion, item := found.item }]

theorem findOperation_spec (run : Yields (findOperation graph search o) ds search' ds') :
    search'.keys = search.keys ∧ ∀ id, search'.get? id =
      (search.get? id).map fun found => if o.resourceId = id then found.add graph o else found := by
  unfold findOperation at run
  cases here : search.get? o.resourceId with
  | none =>
    simp only [here, yields_pure] at run
    obtain ⟨rfl, -⟩ := run
    refine ⟨rfl, fun id => ?_⟩
    by_cases its : o.resourceId = id
    · simp [← its, here]
    · simp [its]
  | some found =>
    simp only [here] at run
    obtain ⟨item, _, converted, put⟩ := yields_bind.mp run
    obtain ⟨rfl, -⟩ := yields_pure.mp put
    obtain rfl := TypeGraph.eq_extend converted
    have known : o.resourceId ∈ search.keys := OrderedMap.isSome_get?_iff.mp (by simp [here])
    refine ⟨OrderedMap.keys_put_of_mem known _, fun id => ?_⟩
    by_cases its : o.resourceId = id
    · simp [← its, here, Found.add]
    · simp [its, OrderedMap.get?_put_other _ (Ne.symm its)]

theorem findAll_spec
    (run : Yields (operations.foldlM (findOperation graph) search) ds search' ds') :
    search'.keys = search.keys ∧ ∀ id, search'.get? id = (search.get? id).map fun found =>
      (operations.filter (·.resourceId = id)).foldl (Found.add graph) found := by
  induction operations generalizing search ds with
  | nil =>
    obtain ⟨rfl, -⟩ := yields_pure.mp run
    simp
  | cons o rest ih =>
    rw [List.foldlM_cons] at run
    obtain ⟨search₁, ds₁, step, run⟩ := yields_bind.mp run
    obtain ⟨keys, entered⟩ := findOperation_spec step
    obtain ⟨keys', found⟩ := ih run
    refine ⟨keys'.trans keys, fun id => ?_⟩
    rw [found, entered, Option.map_map]
    by_cases its : o.resourceId = id
    · simp [its, Function.comp_def]
    · simp [its, Function.comp_def]

theorem findOperation_succeeds_iff (graph : TypeGraph) (search : Search) (o : Operation)
    (ds : Diagnostics) : (∃ search' ds', Yields (findOperation graph search o) ds search' ds') ↔
      (o.resourceId ∈ search.keys → graph.Succeeds o) := by
  rw [← OrderedMap.isSome_get?_iff]
  unfold findOperation
  cases search.get? o.resourceId with
  | none => exact ⟨by simp, fun _ => ⟨search, ds, yields_pure.mpr ⟨rfl, rfl⟩⟩⟩
  | some found =>
    simp only [Option.isSome_some, forall_const, ← graph.succeeds_iff o found.item ds]
    constructor
    · rintro ⟨_, _, run⟩
      obtain ⟨item, ds₁, converted, -⟩ := yields_bind.mp run
      exact ⟨item, ds₁, converted⟩
    · rintro ⟨item, ds₁, converted⟩
      exact ⟨_, ds₁, yields_bind.mpr ⟨item, ds₁, converted, yields_pure.mpr ⟨rfl, rfl⟩⟩⟩

theorem findAll_succeeds_iff (graph : TypeGraph) (operations : List Operation) (search : Search)
    (ds : Diagnostics) :
    (∃ search' ds', Yields (operations.foldlM (findOperation graph) search) ds search' ds') ↔
      ∀ o ∈ operations, o.resourceId ∈ search.keys → graph.Succeeds o := by
  induction operations generalizing search ds with
  | nil => exact ⟨by simp, fun _ => ⟨search, ds, yields_pure.mpr ⟨rfl, rfl⟩⟩⟩
  | cons o rest ih =>
    rw [List.foldlM_cons, List.forall_mem_cons, ← findOperation_succeeds_iff graph search o ds]
    constructor
    · rintro ⟨search', ds', run⟩
      obtain ⟨search₁, ds₁, step, run⟩ := yields_bind.mp run
      have later := (ih search₁ ds₁).mp ⟨search', ds', run⟩
      rw [(findOperation_spec step).1] at later
      exact ⟨⟨search₁, ds₁, step⟩, later⟩
    · rintro ⟨⟨search₁, ds₁, step⟩, later⟩
      rw [← (findOperation_spec step).1] at later
      obtain ⟨search', ds', run⟩ := (ih search₁ ds₁).mpr later
      exact ⟨search', ds', yields_bind.mpr ⟨search₁, ds₁, step, run⟩⟩

theorem keys_ofIds (ids : List String) : (Search.ofIds ids).keys = ids.eraseDups := by
  rw [Search.ofIds, OrderedMap.keys_ofEntries, List.map_map]
  exact congrArg List.eraseDups (List.map_id' ids)

theorem ofIds_succeeds_iff (graph : TypeGraph) (ids : List String) (ds : Diagnostics) :
    (∃ out ds', Yields (ofIds graph ids) ds out ds') ↔
      ∀ o ∈ graph.operations, o.resourceId ∈ ids → graph.Succeeds o := by
  have all := findAll_succeeds_iff graph graph.operations (.ofIds ids) ds
  simp only [keys_ofIds, List.mem_eraseDups] at all
  rw [← all]
  constructor
  · rintro ⟨_, _, run⟩
    obtain ⟨search, ds₁, found, -⟩ := yields_bind.mp run
    exact ⟨search, ds₁, found⟩
  · rintro ⟨search, ds₁, found⟩
    exact ⟨_, ds₁, yields_bind.mpr ⟨search, ds₁, found, yields_pure.mpr ⟨rfl, rfl⟩⟩⟩

/-- What is found of several resources is what is found of each by itself. -/
theorem eq_flatMap_alone (run : Yields (ofIds graph ids) ds out ds') :
    out = ids.eraseDups.flatMap (alone graph) := by
  obtain ⟨search, _, searched, collected⟩ := yields_bind.mp run
  obtain ⟨rfl, -⟩ := yields_pure.mp collected
  obtain ⟨keys, entered⟩ := findAll_spec searched
  rw [keys_ofIds] at keys
  have entries : search.entries = ids.eraseDups.map fun id => (id, found graph id) := by
    rw [OrderedMap.entries_eq_map search {}, keys]
    apply List.map_congr_left
    intro id member
    rw [entered, get?_ofIds, if_pos (List.mem_eraseDups.mp member)]
    rfl
  rw [entries, List.filter_map, List.map_map]
  generalize ids.eraseDups = distinct
  induction distinct with
  | nil => rfl
  | cons id rest ih =>
    rw [List.flatMap_cons, ← ih, alone]
    by_cases empty : (found graph id).item.isEmpty
    · simp [empty]
    · simp [empty]

theorem eq_alone {id : String} (run : Yields (ofIds graph [id]) ds out ds') :
    out = alone graph id := by
  have single := eq_flatMap_alone run
  rwa [show [id].eraseDups = [id] by simp [List.eraseDups_cons], List.flatMap_singleton] at single

theorem mem_listed_iff (graph : TypeGraph) (id : String) :
    id ∈ (ResourceEntry.list [graph]).map (·.id) ↔ ∃ o ∈ graph.operations, o.resourceId = id := by
  rw [ResourceEntry.mem_map_id_list]
  simp

/-- Resources can be converted together exactly if each of them can be by itself, and what comes out
is then what comes out for each, in the order in which they are asked for first. All that are listed
can be converted exactly if every operation can. What was reported before makes no difference. -/
theorem resources_are_converted_apart (graph : TypeGraph) (ids : List String)
    (before before' : Diagnostics) :
    ((∃ out ds, Yields (ofIds graph ids) before out ds) ↔
      ∀ id ∈ ids, ∃ out ds, Yields (ofIds graph [id]) before' out ds) ∧
    (∀ out ds, Yields (ofIds graph ids) before out ds →
      ∃ single : String → List ResourceOperations,
        (∀ id ∈ ids, ∃ ds, Yields (ofIds graph [id]) before' (single id) ds) ∧
        out = ids.eraseDups.flatMap single) ∧
    ((∃ out ds, Yields (ofIds graph ((ResourceEntry.list [graph]).map (·.id))) before out ds) ↔
      ∀ o ∈ graph.operations,
        ∃ item ds, Yields (graph.convertOperation .empty o) before' item ds) := by
  have each : (∃ out ds, Yields (ofIds graph ids) before out ds) ↔
      ∀ id ∈ ids, ∃ out ds, Yields (ofIds graph [id]) before' out ds := by
    simp only [ofIds_succeeds_iff, List.mem_singleton]
    exact ⟨fun all id asked o member its => all o member (its ▸ asked),
      fun all o member asked => all o.resourceId asked o member rfl⟩
  refine ⟨each, fun out ds run => ⟨alone graph, fun id asked => ?_, eq_flatMap_alone run⟩, ?_⟩
  · obtain ⟨out', ds', run'⟩ := each.mp ⟨out, ds, run⟩ id asked
    exact ⟨ds', eq_alone run' ▸ run'⟩
  · simp only [ofIds_succeeds_iff, mem_listed_iff, TypeGraph.succeeds_iff]
    exact ⟨fun all o member => all o member ⟨o, member, rfl⟩, fun all o member _ => all o member⟩

def stock : TypeGraph where
  version := "1"
  operations := [
    { name := "get", verb := .get, path := "/widgets" },
    { name := "get", verb := .get, path := "/gadgets" },
    { name := "delete", verb := .delete, path := "/widgets" }]

/-- Both are found, the one that is asked for twice in its first place. -/
theorem stock_found : ∃ out, Yields (ofIds stock ["/gadgets", "/widgets", "/gadgets"]) [] out [] ∧
    (out.map fun r => (r.id, r.item.keys)) =
      [("/gadgets", [.get]), ("/widgets", [.get, .delete])] ∧
    ∃ single : String → List ResourceOperations,
      (∀ id ∈ ["/gadgets", "/widgets"], ∃ ds, Yields (ofIds stock [id]) [] (single id) ds) ∧
      out = single "/gadgets" ++ single "/widgets" := by
  obtain ⟨out, run, found⟩ : ∃ out,
      Yields (ofIds stock ["/gadgets", "/widgets", "/gadgets"]) [] out [] ∧
        (out.map fun r => (r.id, r.item.keys)) =
          [("/gadgets", [.get]), ("/widgets", [.get, .delete])] := ⟨_, rfl, by decide +kernel⟩
  obtain ⟨single, each, all⟩ := (resources_are_converted_apart stock _ [] []).2.1 out [] run
  have distinct : ["/gadgets", "/widgets", "/gadgets"].eraseDups = ["/gadgets", "/widgets"] := rfl
  have asked : ["/gadgets", "/widgets"] ⊆ ["/gadgets", "/widgets", "/gadgets"] := by simp
  refine ⟨out, run, found, single, fun id member => each id (asked member), ?_⟩
  rw [all, distinct, List.flatMap_cons, List.flatMap_singleton]

end ResourceOperations
end WireSchema
