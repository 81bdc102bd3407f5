import WireSchema.Resource

/-! A listing in closed form. The operations of all graphs are entered one after the other, and what
is known after some of them depends on these alone: the ids stand in the order in which they are met
first, and the versions of an id likewise. The route in a version is that of its last operation. -/
namespace WireSchema.ResourceEntry

variable {graphs : List TypeGraph} {index : Index} {operations : List (String × Operation)}
  {e : ResourceEntry} {r : ResourceVersion} {id label : String} {o : Operation}

def labelled (graphs : List TypeGraph) : List (String × Operation) :=
  graphs.flatMap fun graph => graph.operations.map (graph.apiVersion, ·)

theorem mem_labelled : (label, o) ∈ labelled graphs ↔
    ∃ graph ∈ graphs, graph.apiVersion = label ∧ o ∈ graph.operations := by
  simp only [labelled, List.mem_flatMap, List.mem_map, Prod.mk.injEq]
  constructor
  · rintro ⟨graph, member, _, inside, rfl, rfl⟩
    exact ⟨graph, member, rfl, inside⟩
  · rintro ⟨graph, member, rfl, inside⟩
    exact ⟨graph, member, o, inside, rfl, rfl⟩

def routes (operations : List (String × Operation)) (id : String) : List (String × String) :=
  (operations.filter (·.2.resourceId = id)).map fun e => (e.1, e.2.route)

theorem mem_routes {path : String} : (label, path) ∈ routes operations id ↔
    ∃ o, (label, o) ∈ operations ∧ o.resourceId = id ∧ o.route = path := by
  simp only [routes, List.mem_map, List.mem_filter, decide_eq_true_eq, Prod.mk.injEq]
  constructor
  · rintro ⟨⟨label, o⟩, ⟨member, its⟩, rfl, rfl⟩
    exact ⟨o, member, its, rfl⟩
  · rintro ⟨o, member, its, rfl⟩
    exact ⟨(label, o), ⟨member, its⟩, rfl, rfl⟩

theorem routes_concat (operations : List (String × Operation)) (label : String) (o : Operation)
    (id : String) : routes (operations ++ [(label, o)]) id =
      routes operations id ++ if o.resourceId = id then [(label, o.route)] else [] := by
  by_cases its : o.resourceId = id
  · simp [routes, its]
  · simp [routes, its]

/-- An index has the ids and the routes of some operations. -/
structure Knows (index : Index) (operations : List (String × Operation)) : Prop where
  ids : index.keys = (operations.map (·.2.resourceId)).eraseDups
  versions : ∀ id, (index.get? id).getD .empty = .ofEntries (routes operations id)

theorem knows_nothing : Knows .empty [] where
  ids := by simp [OrderedMap.keys, OrderedMap.empty]
  versions _ := rfl

/-- A new id comes last, a known one stays where it is, and so do versions. -/
theorem Knows.enter (knows : Knows index operations) (label : String) (o : Operation) :
    Knows (enter index label o) (operations ++ [(label, o)]) where
  ids := by
    unfold ResourceEntry.enter
    rw [List.map_append, List.map_singleton, List.eraseDups_append, ← knows.ids]
    by_cases known : o.resourceId ∈ index.keys
    · have met : o.resourceId ∈ operations.map (·.2.resourceId) := by
        rwa [knows.ids, List.mem_eraseDups] at known
      rw [OrderedMap.keys_put_of_mem known]
      simp [List.removeAll, met]
    · have unmet : o.resourceId ∉ operations.map (·.2.resourceId) := by
        rwa [knows.ids, List.mem_eraseDups] at known
      rw [OrderedMap.keys_put_of_not_mem known]
      simp [List.removeAll, List.eraseDups_cons, unmet]
  versions id := by
    unfold ResourceEntry.enter
    rw [routes_concat]
    by_cases its : o.resourceId = id
    · subst its
      rw [if_pos rfl, OrderedMap.ofEntries_concat, ← knows.versions, OrderedMap.get?_put_self,
        Option.getD_some]
    · rw [if_neg its, List.append_nil, OrderedMap.get?_put_other _ (Ne.symm its), knows.versions]

theorem Knows.enterAll (knows : Knows index operations) (later : List (String × Operation)) :
    Knows (later.foldl (fun index e => ResourceEntry.enter index e.1 e.2) index)
      (operations ++ later) := by
  -- What was entered grows with the index, so both are generalized.
  induction later generalizing index operations with
  | nil => rwa [List.append_nil]
  | cons e rest ih =>
    rw [List.foldl_cons, ← List.singleton_append, ← List.append_assoc]
    exact ih (knows.enter e.1 e.2)

theorem knows_index (graphs : List TypeGraph) :
    Knows (ResourceEntry.index graphs) (labelled graphs) := by
  have flat : ResourceEntry.index graphs =
      (labelled graphs).foldl (fun index e => ResourceEntry.enter index e.1 e.2) .empty := by
    rw [ResourceEntry.index, labelled, List.foldl_flatMap]
    simp only [List.foldl_map]
  rw [flat]
  exact knows_nothing.enterAll (labelled graphs)

def ofRoutes (id : String) (routes : List (String × String)) : ResourceEntry where
  id := id
  versions := (OrderedMap.ofEntries routes).entries.map fun (version, path) => { version, path, id }

theorem list_eq (graphs : List TypeGraph) :
    list graphs = ((labelled graphs).map (·.2.resourceId)).eraseDups.map fun id =>
      ofRoutes id (routes (labelled graphs) id) := by
  have knows := knows_index graphs
  rw [list, OrderedMap.entries_eq_map _ .empty, knows.ids, List.map_map]
  apply List.map_congr_left
  intro id _
  simp [ofRoutes, knows.versions]

theorem map_id_list (graphs : List TypeGraph) :
    (list graphs).map (·.id) = ((labelled graphs).map (·.2.resourceId)).eraseDups := by
  rw [list_eq, List.map_map]
  exact List.map_id' _

theorem nodup_map_id_list (graphs : List TypeGraph) : ((list graphs).map (·.id)).Nodup := by
  rw [map_id_list, ← (knows_index graphs).ids]
  exact (ResourceEntry.index graphs).nodup

theorem mem_map_id_list : id ∈ (list graphs).map (·.id) ↔
    ∃ graph ∈ graphs, ∃ o ∈ graph.operations, o.resourceId = id := by
  rw [map_id_list, List.mem_eraseDups, List.mem_map]
  constructor
  · rintro ⟨⟨label, o⟩, member, its⟩
    obtain ⟨graph, inside, -, there⟩ := mem_labelled.mp member
    exact ⟨graph, inside, o, there, its⟩
  · rintro ⟨graph, inside, o, there, its⟩
    exact ⟨(graph.apiVersion, o), mem_labelled.mpr ⟨graph, inside, rfl, there⟩, its⟩

theorem eq_of_mem_list (member : e ∈ list graphs) :
    e = ofRoutes e.id (routes (labelled graphs) e.id) := by
  rw [list_eq] at member
  obtain ⟨id, -, rfl⟩ := List.mem_map.mp member
  rfl

theorem map_version_ofRoutes (id : String) (routes : List (String × String)) :
    (ofRoutes id routes).versions.map (·.version) = (OrderedMap.ofEntries routes).keys := by
  rw [ofRoutes, List.map_map]
  rfl

theorem mem_versions_ofRoutes {routes : List (String × String)} :
    r ∈ (ofRoutes id routes).versions ↔
      r.id = id ∧ routes.reverse.lookup r.version = some r.path := by
  rw [← OrderedMap.get?_ofEntries_eq]
  constructor
  · intro member
    obtain ⟨⟨version, path⟩, entry, rfl⟩ := List.mem_map.mp member
    exact ⟨rfl, OrderedMap.get?_of_mem entry⟩
  · rintro ⟨rfl, last⟩
    exact List.mem_map_of_mem (OrderedMap.mem_of_get? last)

/-- Versions stand in the order in which the resource is met in them first. -/
theorem map_version_of_mem_list (member : e ∈ list graphs) :
    e.versions.map (·.version) = ((routes (labelled graphs) e.id).map (·.1)).eraseDups := by
  rw [eq_of_mem_list member, map_version_ofRoutes, OrderedMap.keys_ofEntries]
  rfl

theorem nodup_map_version (member : e ∈ list graphs) : (e.versions.map (·.version)).Nodup := by
  rw [eq_of_mem_list member, map_version_ofRoutes]
  exact (OrderedMap.ofEntries _).nodup

theorem mem_map_version (member : e ∈ list graphs) : label ∈ e.versions.map (·.version) ↔
    ∃ graph ∈ graphs, graph.apiVersion = label ∧ ∃ o ∈ graph.operations, o.resourceId = e.id := by
  rw [map_version_of_mem_list member, List.mem_eraseDups, List.mem_map]
  constructor
  · rintro ⟨⟨label, path⟩, inside, rfl⟩
    obtain ⟨o, listed, its, -⟩ := mem_routes.mp inside
    obtain ⟨graph, there, version, listed⟩ := mem_labelled.mp listed
    exact ⟨graph, there, version, o, listed, its⟩
  · rintro ⟨graph, there, version, o, listed, its⟩
    have inside := mem_labelled.mpr ⟨graph, there, version, listed⟩
    exact ⟨(label, o.route), mem_routes.mpr ⟨o, inside, its, rfl⟩, rfl⟩

/-- A route that is listed is that of an operation of the resource in the version. -/
theorem route_of_mem_versions (member : e ∈ list graphs) (inside : r ∈ e.versions) :
    r.id = e.id ∧ ∃ graph ∈ graphs, graph.apiVersion = r.version ∧
      ∃ o ∈ graph.operations, o.resourceId = e.id ∧ o.route = r.path := by
  rw [eq_of_mem_list member] at inside
  obtain ⟨same, last⟩ := mem_versions_ofRoutes.mp inside
  obtain ⟨before, after, eq, -⟩ := List.lookup_eq_some_iff.mp last
  have route : (r.version, r.path) ∈ routes (labelled graphs) e.id := by
    rw [← List.mem_reverse, eq]
    simp
  obtain ⟨o, listed, its, path⟩ := mem_routes.mp route
  obtain ⟨graph, there, version, listed⟩ := mem_labelled.mp listed
  exact ⟨same, graph, there, version, o, listed, its, path⟩

/-- Every resource is listed once, where it is met first, and in each of its versions once, where
it is met in that first, with the route of one of its operations there. -/
theorem listing_is_complete (graphs : List TypeGraph) :
    (list graphs).map (·.id) = ((labelled graphs).map (·.2.resourceId)).eraseDups ∧
    ((list graphs).map (·.id)).Nodup ∧
    (∀ id, id ∈ (list graphs).map (·.id) ↔
      ∃ graph ∈ graphs, ∃ o ∈ graph.operations, o.resourceId = id) ∧
    ∀ e ∈ list graphs,
      e.versions.map (·.version) = ((routes (labelled graphs) e.id).map (·.1)).eraseDups ∧
      (e.versions.map (·.version)).Nodup ∧
      (∀ label, label ∈ e.versions.map (·.version) ↔ ∃ graph ∈ graphs, graph.apiVersion = label ∧
        ∃ o ∈ graph.operations, o.resourceId = e.id) ∧
      ∀ r ∈ e.versions, r.id = e.id ∧ ∃ graph ∈ graphs, graph.apiVersion = r.version ∧
        ∃ o ∈ graph.operations, o.resourceId = e.id ∧ o.route = r.path := by
  refine ⟨map_id_list graphs, nodup_map_id_list graphs, fun id => mem_map_id_list, ?_⟩
  intro e member
  exact ⟨map_version_of_mem_list member, nodup_map_version member,
    fun label => mem_map_version member, fun r inside => route_of_mem_versions member inside⟩

def editions : List TypeGraph :=
  let widget (version path : String) : TypeGraph :=
    { version := "1", service := { apiVersion := some version },
      operations := [{ name := "get", verb := .get, path := "/gadgets" },
        { name := "get", verb := .get, path }] }
  [widget "v2" "/widgets/{name}", widget "v1" "/widgets/{id}", widget "v2" "/Widgets/{widgetName}"]

/-- Each id is listed once, and so is each version; the later graph of a version gives its route. -/
theorem editions_are_listed :
    (list editions).map (·.id) = ["/gadgets", "/widgets/{}"] ∧
    ((list editions).map (·.id)).Nodup ∧
    list editions = [
      ⟨"/gadgets", [⟨"v2", "/gadgets", "/gadgets"⟩, ⟨"v1", "/gadgets", "/gadgets"⟩]⟩,
      ⟨"/widgets/{}", [⟨"v2", "/Widgets/{widgetName}", "/widgets/{}"⟩,
        ⟨"v1", "/widgets/{id}", "/widgets/{}"⟩]⟩] := by
  have complete := listing_is_complete editions
  exact ⟨complete.1.trans (by decide +kernel), complete.2.1, by decide +kernel⟩

end WireSchema.ResourceEntry
