import WireSchema.Proofs.Independence
import WireSchema.Proofs.NormalForm

/-! A resource is shown with a route in the listing and again where its operations are. These come
from different operations of it: a listing keeps entering routes until the last, a search the first
that is not empty. -/
namespace WireSchema

open ConvertM

namespace ResourceEntry

variable {graph : TypeGraph} {id : String} {o : Operation}

/-- A resource of one graph is listed with the route of its last operation. -/
theorem mem_list_singleton_iff
    (last : (graph.operations.filter (·.resourceId = id)).getLast? = some o) (e : ResourceEntry) :
    e ∈ list [graph] ∧ e.id = id ↔ e = ⟨id, [⟨graph.apiVersion, o.route, id⟩]⟩ := by
  have own : routes (labelled [graph]) id =
      ((graph.operations.filter (·.resourceId = id)).map (·.route)).map (graph.apiVersion, ·) := by
    simp [routes, labelled, List.filter_map, Function.comp_def]
  have latest : ((graph.operations.filter (·.resourceId = id)).map (·.route)).getLast? =
      some o.route := by
    rw [List.getLast?_map, last, Option.map_some]
  have shown : ofRoutes id (routes (labelled [graph]) id) =
      ⟨id, [⟨graph.apiVersion, o.route, id⟩]⟩ := by
    rw [ofRoutes, own, OrderedMap.entries_ofEntries_of_one_key _ latest]
    rfl
  constructor
  · rintro ⟨member, rfl⟩
    rw [← shown]
    exact eq_of_mem_list member
  · rintro rfl
    obtain ⟨inside, its⟩ := List.mem_filter.mp (List.mem_of_getLast? last)
    have listed : id ∈ (list [graph]).map (·.id) :=
      mem_map_id_list.mpr ⟨graph, .head _, o, inside, of_decide_eq_true its⟩
    obtain ⟨e, member, rfl⟩ := List.mem_map.mp listed
    rw [← shown, ← eq_of_mem_list member]
    exact ⟨member, rfl⟩

end ResourceEntry

namespace ResourceOperations

variable {graph : TypeGraph} {ids : List String} {out : List ResourceOperations}
  {ds ds' : Diagnostics} {id : String} {o : Operation} {operations : List Operation} {found : Found}

/-- A route that is not empty is not replaced, and nor is an empty one if there is no other. -/
theorem path_foldl_add (kept : found.path = "" → ∀ o ∈ operations, o.route = "") :
    (operations.foldl (Found.add graph) found).path = found.path := by
  induction operations generalizing found with
  | nil => rfl
  | cons o rest ih =>
    have step : (found.add graph o).path = found.path := by
      by_cases empty : found.path = ""
      · simp [Found.add, empty, kept empty o]
      · simp [Found.add, empty]
    rw [List.foldl_cons, ih, step]
    intro empty o' later
    exact kept (step ▸ empty) o' (List.mem_cons_of_mem _ later)

theorem path_found (first : (graph.operations.filter (·.resourceId = id)).head? = some o) :
    (ResourceOperations.found graph id).path = o.route := by
  obtain ⟨rest, eq⟩ := List.head?_eq_some_iff.mp first
  have own : ∀ o' ∈ o :: rest, o'.resourceId = id := by
    intro o' member
    rw [← eq] at member
    exact of_decide_eq_true (List.mem_filter.mp member).2
  unfold ResourceOperations.found
  rw [eq, List.foldl_cons, path_foldl_add]
  · rfl
  · -- An empty route has the empty id, and then every operation of that id has an empty route.
    intro (empty : o.route = "") o' later
    apply Route.eq_empty_of_resourceId
    have same : o'.resourceId = o.resourceId :=
      (own o' (List.mem_cons_of_mem _ later)).trans (own o List.mem_cons_self).symm
    rw [Operation.resourceId, Operation.resourceId, empty] at same
    exact same

/-- Nothing is found of a resource without operations. -/
theorem mem_alone {r : ResourceOperations} (member : r ∈ alone graph id) :
    r.id = id ∧ r.path = (ResourceOperations.found graph id).path ∧
      graph.operations.filter (·.resourceId = id) ≠ [] := by
  unfold alone at member
  by_cases empty : (ResourceOperations.found graph id).item.isEmpty
  · simp [empty] at member
  · obtain rfl : r = _ := by simpa [empty] using member
    refine ⟨rfl, rfl, fun unaddressed => ?_⟩
    rw [ResourceOperations.found, unaddressed] at empty
    exact empty rfl

/-- What is found of a resource has the route of its first operation, and what is listed of it that
of its last one. So they have one path exactly if these two operations have one route. -/
theorem views_agree_iff (run : Yields (ofIds graph ids) ds out ds') :
    ∀ r ∈ out, ∃ first last,
      (graph.operations.filter (·.resourceId = r.id)).head? = some first ∧
      (graph.operations.filter (·.resourceId = r.id)).getLast? = some last ∧
      r.path = first.route ∧
      (∀ e, e ∈ ResourceEntry.list [graph] ∧ e.id = r.id ↔
        e = ⟨r.id, [⟨graph.apiVersion, last.route, r.id⟩]⟩) ∧
      ((∀ e ∈ ResourceEntry.list [graph], e.id = r.id → ∀ v ∈ e.versions, v.path = r.path) ↔
        first.route = last.route) := by
  intro r member
  rw [eq_flatMap_alone run] at member
  obtain ⟨id, -, inside⟩ := List.mem_flatMap.mp member
  obtain ⟨rfl, path, addressed⟩ := mem_alone inside
  have head := List.head?_eq_some_head addressed
  have final := List.getLast?_eq_some_getLast addressed
  have listed := ResourceEntry.mem_list_singleton_iff final
  rw [path_found head] at path
  refine ⟨_, _, head, final, path, listed, ?_⟩
  constructor
  · intro same
    obtain ⟨there, its⟩ := (listed _).mpr rfl
    exact path.symm.trans (same _ there its _ List.mem_cons_self).symm
  · intro same e there its v version
    obtain rfl := (listed e).mp ⟨there, its⟩
    obtain rfl := List.mem_singleton.mp version
    exact same.symm.trans path.symm

/-- A widget is read and deleted at paths that call its name by two names. -/
def respelled : TypeGraph where
  version := "1"
  operations := [
    { name := "get", verb := .get, path := "/widgets/{name}" },
    { name := "delete", verb := .delete, path := "/widgets/{widgetName}" },
    { name := "list", verb := .get, path := "/widgets" }]

/-- It is found at the one and listed at the other. -/
theorem respelled_views_differ :
    ∃ out, Yields (ofIds respelled ["/widgets/{}"]) [] out [] ∧
      out.map (·.path) = ["/widgets/{name}"] ∧
      (ResourceEntry.list [respelled]).map (fun e => (e.id, e.versions.map (·.path))) =
        [("/widgets/{}", ["/widgets/{widgetName}"]), ("/widgets", ["/widgets"])] :=
  ⟨_, rfl, by decide +kernel, by decide +kernel⟩

def restored : TypeGraph where
  version := "1"
  operations := [
    { name := "get", verb := .get, path := "/widgets/{name}" },
    { name := "put", verb := .put, path := "/widgets/{widgetName}" },
    { name := "list", verb := .get, path := "/widgets" },
    { name := "delete", verb := .delete, path := "/widgets/{name}" }]

/-- The first and the last of its operations decide, so both views have their path. -/
theorem respelled_views_agree :
    ∃ out, Yields (ofIds restored ["/widgets/{}"]) [] out [] ∧
      out.map (fun r => (r.id, r.path, r.item.keys)) =
        [("/widgets/{}", "/widgets/{name}", [.get, .put, .delete])] ∧
      ∀ r ∈ out, ∀ e ∈ ResourceEntry.list [restored], e.id = r.id →
        ∀ v ∈ e.versions, v.path = r.path := by
  obtain ⟨out, run, shown⟩ : ∃ out, Yields (ofIds restored ["/widgets/{}"]) [] out [] ∧
      out.map (fun r => (r.id, r.path, r.item.keys)) =
        [("/widgets/{}", "/widgets/{name}", [.get, .put, .delete])] :=
    ⟨_, rfl, by decide +kernel⟩
  refine ⟨out, run, shown, fun r member => ?_⟩
  have here := List.mem_map_of_mem (f := fun r => (r.id, r.path, r.item.keys)) member
  rw [shown, List.mem_singleton, Prod.mk.injEq] at here
  obtain ⟨first, last, head, final, -, -, agree⟩ := views_agree_iff run r member
  rw [here.1] at head final
  apply agree.mpr
  have firstRoute := congrArg (Option.map Operation.route) head
  have lastRoute := congrArg (Option.map Operation.route) final
  have same : ((restored.operations.filter (·.resourceId = "/widgets/{}")).head?).map (·.route) =
      ((restored.operations.filter (·.resourceId = "/widgets/{}")).getLast?).map (·.route) := by
    decide +kernel
  exact Option.some.inj (firstRoute.symm.trans (same.trans lastRoute))

end ResourceOperations
end WireSchema
