import WireSchema.Graph

/-! Whether an operation answers page by page, and where a page holds its items and its link. -/
namespace WireSchema

/-- The names that a client needs in order to walk through pages. -/
structure Pageable where
  nextLinkName : String
  /-- Absent if the items are where they usually are. -/
  itemName : Option String := none
  deriving DecidableEq, Repr

def Pageable.ofPaging (paging : Paging) : Pageable where
  nextLinkName := paging.nextLinkSegments.getLast?.getD "nextLink"
  itemName := paging.itemSegments.getLast?.filter (· ≠ "value")

namespace TypeGraph

def modelOf? (graph : TypeGraph) : TypeRef → Option (TypeId × ModelType)
  | .literal _ => none
  | .named name =>
    match graph.resolveName name with
    | .ok (.declared id (.model model)) => some (id, model)
    | _ => none

/-- What a model says about paging, or else its base. -/
def ownPaging? (graph : TypeGraph) (model : ModelType) : Option Paging :=
  model.paged.or do
    let (_, base) ← (graph.modelNamed (← model.base)).toOption
    base.paged

theorem index_lt_of_find? {graph : TypeGraph} {name : String} {id : TypeId} {decl : Declaration}
    (h : graph.find? name = some (id, decl)) : id.index < graph.types.size := by
  simp only [find?, Option.bind_eq_bind, Option.bind_eq_some_iff] at h
  obtain ⟨i, found, entry, _, same⟩ := h
  cases same
  exact (List.findIdx?_eq_some_iff_getElem.mp found).1

theorem index_lt_of_modelOf? {graph : TypeGraph} {type : TypeRef} {id : TypeId} {model : ModelType}
    (h : graph.modelOf? type = some (id, model)) : id.index < graph.types.size := by
  cases type with
  | literal => cases h
  | named name =>
    simp only [modelOf?, resolveName] at h
    split at h
    · rename_i resolved
      split at resolved <;> cases resolved
      cases h
      exact index_lt_of_find? ‹_›
    · cases h

def unvisited (graph : TypeGraph) (visited : List TypeId) : List Nat :=
  (List.range graph.types.size).filter fun i => TypeId.mk i ∉ visited

theorem length_unvisited_cons_lt {graph : TypeGraph} {visited : List TypeId} {id : TypeId}
    (known : id.index < graph.types.size) (fresh : id ∉ visited) :
    (graph.unvisited (id :: visited)).length < (graph.unvisited visited).length := by
  have split : graph.unvisited (id :: visited) =
      (graph.unvisited visited).filter fun i => TypeId.mk i ≠ id := by
    simp only [unvisited, List.filter_filter]
    congr 1
    funext i
    simp
  rw [split, List.length_filter_lt_length_iff_exists]
  exact ⟨id.index, by simp [unvisited, known, fresh], by simp⟩

/-- The paging of the first model that has one, where the template arguments of a model come right
behind it. No model is looked at twice. -/
def firstPaging? (graph : TypeGraph) (visited : List TypeId) : List TypeRef → Option Paging
  | [] => none
  | type :: rest =>
    match _ : graph.modelOf? type with
    | none => firstPaging? graph visited rest
    | some (id, model) =>
      if _ : id ∈ visited then firstPaging? graph visited rest
      else
        match graph.ownPaging? model with
        | some paging => some paging
        | none => firstPaging? graph (id :: visited) (model.templateArgs ++ rest)
termination_by types => ((graph.unvisited visited).length, types.length)
decreasing_by
  · exact Prod.Lex.right _ (by simp)
  · exact Prod.Lex.right _ (by simp)
  · exact Prod.Lex.left _ _ (length_unvisited_cons_lt (index_lt_of_modelOf? ‹_›) ‹_›)

/-- The paging of a model comes before that of its template arguments. -/
theorem firstPaging?_cons (graph : TypeGraph) (visited : List TypeId) (type : TypeRef)
    (rest : List TypeRef) : graph.firstPaging? visited (type :: rest) =
      match graph.modelOf? type with
      | none => graph.firstPaging? visited rest
      | some (id, model) =>
        if id ∈ visited then graph.firstPaging? visited rest
        else (graph.ownPaging? model).or
          (graph.firstPaging? (id :: visited) (model.templateArgs ++ rest)) := by
  rw [firstPaging?]
  split
  · rename_i unlisted
    rw [unlisted]
  · rename_i id model found
    rw [found]
    simp only [dite_eq_ite]
    congr 1
    split <;> simp_all

/-- The paging of an operation is that of its first response whose type leads to one. -/
def pageable? (graph : TypeGraph) (operation : Operation) : Option Pageable :=
  (operation.responses.filterMap (·.type)).findSome? fun type =>
    (graph.firstPaging? [] [type]).map .ofPaging

end TypeGraph
end WireSchema
