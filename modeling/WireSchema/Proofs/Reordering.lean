import WireSchema.Proofs.Assembling

/-! The order in which types are declared does not matter. It gives the declarations their places,
and these are what classes are kept by; but a place is only ever compared with others. -/
namespace WireSchema

open ConvertM

namespace TypeGraph

variable {graph : TypeGraph} {types : OrderedMap String Declaration}

def moved (graph : TypeGraph) (types : OrderedMap String Declaration) (id : TypeId) : TypeId :=
  match graph.types.entryAt? id.index with
  | some e => ((types.index? e.1).map TypeId.mk).getD id
  | none => id

section Moved

variable (reordered : types.entries.Perm graph.types.entries)
include reordered

theorem entryAt?_moved {id : TypeId} {e : String × Declaration}
    (here : graph.types.entryAt? id.index = some e) :
    types.entryAt? (graph.moved types id).index = some e := by
  have member : e ∈ types.entries := reordered.mem_iff.mpr (List.mem_of_getElem? here)
  obtain ⟨j, there⟩ := List.mem_iff_getElem?.mp member
  have index : types.index? e.1 = some j := OrderedMap.index?_eq_some_iff.mpr ⟨e.2, there⟩
  have place : graph.moved types id = ⟨j⟩ := by simp [moved, here, index]
  rw [place]
  exact there

/-- Nothing moves where there is no declaration. -/
theorem entryAt?_moved_of_none {id : TypeId} (here : graph.types.entryAt? id.index = none) :
    graph.moved types id = id ∧ types.entryAt? id.index = none := by
  refine ⟨by simp [moved, here], ?_⟩
  unfold OrderedMap.entryAt? at here ⊢
  rw [List.getElem?_eq_none_iff] at here ⊢
  rwa [reordered.length_eq]

theorem moved_injective : Function.Injective (graph.moved types) := by
  intro a b same
  cases atA : graph.types.entryAt? a.index with
  | none =>
    obtain ⟨stays, beyond⟩ := entryAt?_moved_of_none reordered atA
    cases atB : graph.types.entryAt? b.index with
    | none => rw [← stays, same, (entryAt?_moved_of_none reordered atB).1]
    | some e =>
      have there := entryAt?_moved reordered atB
      rw [← same, stays, beyond] at there
      cases there
  | some e =>
    have there := entryAt?_moved reordered atA
    rw [same] at there
    cases atB : graph.types.entryAt? b.index with
    | none =>
      obtain ⟨stays, beyond⟩ := entryAt?_moved_of_none reordered atB
      rw [stays, beyond] at there
      cases there
    | some e' =>
      obtain rfl := Option.some.inj (there.symm.trans (entryAt?_moved reordered atB))
      have place (id : TypeId) (here : graph.types.entryAt? id.index = some e) :
          graph.types.index? e.1 = some id.index :=
        OrderedMap.index?_eq_some_iff.mpr ⟨e.2, here⟩
      have index := Option.some.inj ((place a atA).symm.trans (place b atB))
      cases a
      cases b
      exact congrArg TypeId.mk index

/-- Reordered declarations agree with those before, under every visibility. -/
theorem agree_of_perm (v : Visibility) :
    Agree v (graph.moved types) graph { graph with types } where
  injective := moved_injective reordered
  service := rfl
  size := reordered.length_eq
  entry id := by
    cases here : graph.types.entryAt? id.index with
    | none =>
      obtain ⟨stays, beyond⟩ := entryAt?_moved_of_none reordered here
      simp only [stays, beyond]
      exact .none
    | some e =>
      simp only [entryAt?_moved reordered here]
      exact .some ⟨rfl, .refl e.2⟩
  place name := by
    cases index : graph.types.index? name with
    | some i =>
      obtain ⟨decl, here⟩ := OrderedMap.index?_eq_some_iff.mp index
      have there := @entryAt?_moved graph types reordered ⟨i⟩ (name, decl) here
      simp only [OrderedMap.index?_eq_some_iff.mpr ⟨decl, there⟩, Option.map_some]
    | none =>
      cases index' : types.index? name with
      | none => rfl
      | some j =>
        obtain ⟨decl, there⟩ := OrderedMap.index?_eq_some_iff.mp index'
        have member := reordered.mem_iff.mp (List.mem_of_getElem? there)
        obtain ⟨i, here⟩ := List.mem_iff_getElem?.mp member
        have known : graph.types.index? name = some i :=
          OrderedMap.index?_eq_some_iff.mpr ⟨decl, here⟩
        rw [index] at known
        cases known

end Moved

/-- Where declarations are reordered, operations come out the same: the parameters of the host, the
schema of every stage, the operations of resources, each with its failures and its reports. -/
theorem declaration_order_is_irrelevant (graph : TypeGraph) (types : OrderedMap String Declaration)
    (reordered : types.entries.Perm graph.types.entries) :
    let graph' := { graph with types }
    (∀ operation operationId ds,
      let made := outcome (Assembler.ofOperation graph operation operationId) ds
      outcome (Assembler.ofOperation graph' operation operationId) ds =
        (made.1.map fun a => { a with graph := graph' }, made.2)) ∧
    (∀ a : Assembler, a.graph = graph → ∀ stage ds,
      outcome (Assembler.assemble { a with graph := graph' } stage) ds =
        outcome (a.assemble stage) ds) ∧
    ∀ ids ds, outcome (ResourceOperations.ofIds graph' ids) ds =
      outcome (ResourceOperations.ofIds graph ids) ds := by
  intro graph'
  have agree := agree_of_perm reordered
  refine ⟨fun operation operationId ds => ?_, fun a known stage ds => ?_, fun ids ds => ?_⟩
  · have both := ofOperation_parallel agree operation operationId
    refine Prod.ext ?_ (both.states ds)
    obtain ⟨e, here, there⟩ | ⟨a, _, here, there, -, rfl⟩ := (both.results ds).cases
    · rw [here]
      exact there
    · rw [here]
      exact there
  · exact (assemble_parallel agree known stage).eq ds
  · exact (ofIds_parallel agree rfl ids).eq ds

def boxTypes : List (String × Declaration) := [
  ("Box", .model {
    name := "Box"
    properties := .ofEntries [
      ("lid", { type := .named "First" }), ("lock", { type := .named "Second" }),
      ("spareLid", { type := .named "First" }), ("spareLock", { type := .named "Second" })] }),
  ("First", .model {
    name := "Part", properties := .ofEntries [("a", { type := .named "string" })] }),
  ("Second", .model {
    name := "Part", properties := .ofEntries [("b", { type := .named "string" })] })]

def makeBox : Operation where
  name := "make"
  verb := .post
  path := "/box"
  body := some { type := .named "Box" }

def boxes : TypeGraph where
  version := "1"
  types := .ofEntries boxTypes
  operations := [makeBox]

/-- The parts get the same names if they are declared the other way round. -/
theorem box_declared_backwards :
    let backwards : OrderedMap String Declaration := .ofEntries boxTypes.reverse
    let named (graph : TypeGraph) : Option (List String) :=
      let made := do (← Assembler.ofOperation graph makeBox "Make").assemble .create
      (outcome made []).1.toOption.map fun schema => schema.definitions.request.keys
    backwards.entries.Perm boxes.types.entries ∧
      outcome (ResourceOperations.ofIds { boxes with types := backwards } ["/box"]) [] =
        outcome (ResourceOperations.ofIds boxes ["/box"]) [] ∧
      named boxes = some ["Part_create", "Part_create2"] ∧
      named { boxes with types := backwards } = some ["Part_create", "Part_create2"] := by
  intro backwards named
  have reordered : backwards.entries.Perm boxes.types.entries := by
    rw [OrderedMap.entries_ofEntries (by decide), boxes, OrderedMap.entries_ofEntries (by decide)]
    exact List.reverse_perm _
  have same := (declaration_order_is_irrelevant boxes backwards reordered).2.2 ["/box"] []
  exact ⟨reordered, same, by decide +kernel, by decide +kernel⟩

end TypeGraph
end WireSchema
