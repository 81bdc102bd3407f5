import Mathlib.Logic.Relation
import WireSchema.Paging
import WireSchema.Proofs.References

/-! The search for paging among the template arguments of models, which may be cyclic. It looks at
no model twice, so it ends; and it misses none, since the arguments of a model that has no paging
have all been looked at when the search is through with it. -/
namespace WireSchema

/-- What a client is told about paging: the last part of the way to the link, or the usual name of
one if there is no way, and the last part of the way to the items unless it is the usual one. -/
structure Pageable.Describes (page : Pageable) (paging : Paging) : Prop where
  next : paging.nextLinkSegments.getLast? = some page.nextLinkName ∨
    paging.nextLinkSegments = [] ∧ page.nextLinkName = "nextLink"
  items : ∀ name, page.itemName = some name ↔
    paging.itemSegments.getLast? = some name ∧ name ≠ "value"

theorem Pageable.describes_ofPaging (paging : Paging) :
    (Pageable.ofPaging paging).Describes paging where
  next := by
    unfold Pageable.ofPaging
    cases link : paging.nextLinkSegments.getLast? with
    | none => exact .inr ⟨List.getLast?_eq_none_iff.mp link, rfl⟩
    | some name => exact .inl rfl
  items name := by
    simp only [Pageable.ofPaging, Option.filter_eq_some_iff, decide_eq_true_eq]

namespace TypeGraph

open Relation

variable {graph : TypeGraph} {id target : TypeId} {model : ModelType} {type : TypeRef}
  {types xs ys : List TypeRef} {visited visited' : List TypeId} {paging : Paging}
  {found : Option Paging}

/-- A named template argument of a model that is a model as well. -/
def IsArgument (graph : TypeGraph) (id arg : TypeId) : Prop :=
  ∃ model model' type, graph.model? id = some model ∧ type ∈ model.templateArgs ∧
    graph.resolve type = .ok (.declared arg (.model model'))

/-- What a model says about paging, or what its base says if it says nothing itself. -/
inductive Pages (graph : TypeGraph) (id : TypeId) (paging : Paging) : Prop
  | own {model : ModelType} :
      graph.model? id = some model → model.paged = some paging → Pages graph id paging
  | base {model model' : ModelType} {name : String} {base : TypeId} :
      graph.model? id = some model → model.paged = none → model.base = some name →
      graph.modelNamed name = .ok (base, model') → model'.paged = some paging →
      Pages graph id paging

/-- A type is a model from which template arguments lead to one with paging. -/
def LeadsToPaging (graph : TypeGraph) (type : TypeRef) (paging : Paging) : Prop :=
  ∃ id model target, graph.resolve type = .ok (.declared id (.model model)) ∧
    ReflTransGen graph.IsArgument id target ∧ graph.Pages target paging

theorem modelOf?_eq_some_iff : graph.modelOf? type = some (id, model) ↔
    graph.resolve type = .ok (.declared id (.model model)) := by
  cases type with
  | literal => simp [modelOf?, resolve]
  | named name =>
    simp only [modelOf?, resolve]
    constructor
    · intro known
      split at known
      · rename_i resolved
        cases known
        exact resolved
      · cases known
    · intro resolved
      rw [resolved]

theorem toOption_eq_some_iff {ε α : Type} {x : Except ε α} {a : α} :
    x.toOption = some a ↔ x = .ok a := by
  cases x <;> simp [Except.toOption]

theorem ownPaging?_eq_some_iff (here : graph.model? id = some model) :
    graph.ownPaging? model = some paging ↔ graph.Pages id paging := by
  simp only [ownPaging?, Option.or_eq_some_iff, Option.bind_eq_bind, Option.bind_eq_some_iff,
    toOption_eq_some_iff]
  constructor
  · rintro (own | ⟨silent, name, named, ⟨base, model'⟩, known, paged⟩)
    · exact .own here own
    · exact .base here silent named known paged
  · intro pages
    cases pages with
    | own here' own =>
      obtain rfl := Option.some.inj (here.symm.trans here')
      exact .inl own
    | base here' silent named known paged =>
      obtain rfl := Option.some.inj (here.symm.trans here')
      exact .inr ⟨silent, _, named, _, known, paged⟩

/-- A search of some types in their order and, within each, of the template arguments, that begins
when the models `visited` have been looked at and ends with `visited'`. The arguments of a model are
searched before the types behind it, by a search of their own, which tells the next one what it has
looked at. -/
inductive Searches (graph : TypeGraph) :
    List TypeId → List TypeRef → List TypeId → Option Paging → Prop
  | done {visited : List TypeId} : Searches graph visited [] visited none
  | other {visited visited' : List TypeId} {type : TypeRef} {rest : List TypeRef}
      {found : Option Paging} :
      graph.modelOf? type = none → Searches graph visited rest visited' found →
      Searches graph visited (type :: rest) visited' found
  | again {visited visited' : List TypeId} {type : TypeRef} {rest : List TypeRef} {id : TypeId}
      {model : ModelType} {found : Option Paging} :
      graph.modelOf? type = some (id, model) → id ∈ visited →
      Searches graph visited rest visited' found →
      Searches graph visited (type :: rest) visited' found
  | own {visited : List TypeId} {type : TypeRef} {rest : List TypeRef} {id : TypeId}
      {model : ModelType} {paging : Paging} :
      graph.modelOf? type = some (id, model) → id ∉ visited →
      graph.ownPaging? model = some paging →
      Searches graph visited (type :: rest) (id :: visited) (some paging)
  | argument {visited visited' : List TypeId} {type : TypeRef} {rest : List TypeRef} {id : TypeId}
      {model : ModelType} {paging : Paging} :
      graph.modelOf? type = some (id, model) → id ∉ visited → graph.ownPaging? model = none →
      Searches graph (id :: visited) model.templateArgs visited' (some paging) →
      Searches graph visited (type :: rest) visited' (some paging)
  | next {visited visited' visited'' : List TypeId} {type : TypeRef} {rest : List TypeRef}
      {id : TypeId} {model : ModelType} {found : Option Paging} :
      graph.modelOf? type = some (id, model) → id ∉ visited → graph.ownPaging? model = none →
      Searches graph (id :: visited) model.templateArgs visited' none →
      Searches graph visited' rest visited'' found →
      Searches graph visited (type :: rest) visited'' found

namespace Searches

/-- A search of two lists finds something in the first of them, or else searches the second. -/
theorem split (search : graph.Searches visited (xs ++ ys) visited' found) :
    (∃ paging, found = some paging ∧ graph.Searches visited xs visited' (some paging)) ∨
    ∃ between, graph.Searches visited xs between none ∧
      graph.Searches between ys visited' found := by
  induction xs generalizing visited with
  | nil => exact .inr ⟨visited, .done, search⟩
  | cons type rest ih =>
    cases search with
    | other unlike later =>
      exact (ih later).imp (fun ⟨p, same, front⟩ => ⟨p, same, .other unlike front⟩)
        fun ⟨between, front, back⟩ => ⟨between, .other unlike front, back⟩
    | again known seen later =>
      exact (ih later).imp (fun ⟨p, same, front⟩ => ⟨p, same, .again known seen front⟩)
        fun ⟨between, front, back⟩ => ⟨between, .again known seen front, back⟩
    | own known new own => exact .inl ⟨_, rfl, .own known new own⟩
    | argument known new silent hit => exact .inl ⟨_, rfl, .argument known new silent hit⟩
    | next known new silent missed later =>
      exact (ih later).imp (fun ⟨p, same, front⟩ => ⟨p, same, .next known new silent missed front⟩)
        fun ⟨between, front, back⟩ => ⟨between, .next known new silent missed front, back⟩

/-- A search looks at models of the graph, at each of them once. -/
theorem distinct (search : graph.Searches visited types visited' found)
    (before : graph.Visited 0 visited) : graph.Visited 0 visited' := by
  induction search with
  | done => exact before
  | other _ _ ih | again _ _ _ ih => exact ih before
  | own known new _ => exact (before.cons (index_lt_of_modelOf? known) new).weaken
  | argument known new _ _ ih => exact ih (before.cons (index_lt_of_modelOf? known) new).weaken
  | next known new _ _ _ ihArgs ih =>
    exact ih (ihArgs (before.cons (index_lt_of_modelOf? known) new).weaken)

/-- What is found is paging that one of the types leads to. -/
theorem sound (search : graph.Searches visited types visited' (some paging)) :
    ∃ type ∈ types, graph.LeadsToPaging type paging := by
  generalize hit : some paging = found at search
  induction search with
  | done => cases hit
  | other _ _ ih | again _ _ _ ih =>
    obtain ⟨type, member, leads⟩ := ih hit
    exact ⟨type, List.mem_cons_of_mem _ member, leads⟩
  | own known _ own =>
    cases hit
    have resolved := modelOf?_eq_some_iff.mp known
    have pages := (ownPaging?_eq_some_iff (model?_of_resolve resolved)).mp own
    exact ⟨_, List.mem_cons_self, _, _, _, resolved, .refl, pages⟩
  | argument known _ _ _ ih =>
    obtain ⟨type, member, id, model, target, resolved', leads, pages⟩ := ih hit
    have resolved := modelOf?_eq_some_iff.mp known
    have step : graph.IsArgument _ id :=
      ⟨_, model, type, model?_of_resolve resolved, member, resolved'⟩
    exact ⟨_, List.mem_cons_self, _, _, target, resolved, .head step leads, pages⟩
  | next _ _ _ _ _ _ ih =>
    obtain ⟨type, member, leads⟩ := ih hit
    exact ⟨type, List.mem_cons_of_mem _ member, leads⟩

/-- What is known after a search of some types that has found nothing: it has looked at all of them,
and what it has looked at has no paging, and no arguments that it has not looked at. -/
structure Exhausts (graph : TypeGraph) (visited : List TypeId) (types : List TypeRef)
    (visited' : List TypeId) : Prop where
  kept : ∀ id ∈ visited, id ∈ visited'
  looked : ∀ type ∈ types, ∀ id model,
    graph.resolve type = .ok (.declared id (.model model)) → id ∈ visited'
  closed : ∀ id ∈ visited', id ∈ visited ∨
    (∀ paging, ¬ graph.Pages id paging) ∧ ∀ arg, graph.IsArgument id arg → arg ∈ visited'

theorem exhausts (search : graph.Searches visited types visited' none) :
    Exhausts graph visited types visited' := by
  generalize miss : none = found at search
  induction search with
  | done => exact ⟨fun _ known => known, by simp, fun _ => .inl⟩
  | other unlike _ ih =>
    have rest := ih miss
    refine { rest with looked := List.forall_mem_cons.mpr ⟨?_, rest.looked⟩ }
    intro id model resolved
    rw [modelOf?_eq_some_iff.mpr resolved] at unlike
    cases unlike
  | again known seen _ ih =>
    have rest := ih miss
    refine { rest with looked := List.forall_mem_cons.mpr ⟨?_, rest.looked⟩ }
    intro id model resolved
    rw [modelOf?_eq_some_iff.mpr resolved] at known
    cases known
    exact rest.kept _ seen
  | own => cases miss
  | argument => cases miss
  | @next visited visited' visited'' type rest here model found known new silent _ _ ihArgs ih =>
    have args := ihArgs rfl
    have rest := ih miss
    have resolved := modelOf?_eq_some_iff.mp known
    have isModel := model?_of_resolve resolved
    have looked : here ∈ visited'' := rest.kept here (args.kept here List.mem_cons_self)
    refine ⟨fun id member => rest.kept id (args.kept id (List.mem_cons_of_mem _ member)),
      List.forall_mem_cons.mpr ⟨fun id model resolved' => ?_, rest.looked⟩, fun id member => ?_⟩
    · cases resolved.symm.trans resolved'
      exact looked
    · -- It was looked at before, it is the model at hand, or one of the two searches has left it.
      rcases rest.closed id member with between | outcome
      · rcases args.closed id between with before | ⟨silent, arguments⟩
        · rcases List.mem_cons.mp before with rfl | before
          · refine .inr ⟨fun paging pages => ?_, ?_⟩
            · rw [(ownPaging?_eq_some_iff isModel).mpr pages] at silent
              cases silent
            · rintro arg ⟨_, model', type, here', member, resolved⟩
              cases isModel.symm.trans here'
              exact rest.kept arg (args.looked type member arg model' resolved)
          · exact .inl before
        · exact .inr ⟨silent, fun arg isArg => rest.kept arg (arguments arg isArg)⟩
      · exact .inr outcome

/-- A search from the start that finds nothing has missed nothing. -/
theorem complete (search : graph.Searches [] types visited' none) (member : type ∈ types) :
    ¬ graph.LeadsToPaging type paging := by
  have exhausted := search.exhausts
  have closed : ∀ id ∈ visited', (∀ paging, ¬ graph.Pages id paging) ∧
      ∀ arg, graph.IsArgument id arg → arg ∈ visited' :=
    fun id member => (exhausted.closed id member).resolve_left List.not_mem_nil
  rintro ⟨id, model, target, resolved, leads, pages⟩
  have looked : target ∈ visited' := by
    clear pages
    induction leads with
    | refl => exact exhausted.looked type member id model resolved
    | tail _ step ih => exact (closed _ ih).2 _ step
  exact (closed target looked).1 paging pages

end Searches

/-- The search that is made is one, and so it comes to an end. -/
theorem searches_firstPaging? (graph : TypeGraph) (visited : List TypeId) (types : List TypeRef) :
    ∃ visited', graph.Searches visited types visited' (graph.firstPaging? visited types) := by
  induction visited, types using firstPaging?.induct graph with
  | case1 visited =>
    rw [firstPaging?]
    exact ⟨visited, .done⟩
  | case2 visited type rest unlike ih =>
    obtain ⟨visited', search⟩ := ih
    rw [firstPaging?_cons, unlike]
    exact ⟨visited', .other unlike search⟩
  | case3 visited type rest id model known seen ih =>
    obtain ⟨visited', search⟩ := ih
    simp only [firstPaging?_cons, known, seen, if_true]
    exact ⟨visited', .again known seen search⟩
  | case4 visited type rest id model known new paging own =>
    simp only [firstPaging?_cons, known, new, if_false, own, Option.some_or]
    exact ⟨_, .own known new own⟩
  | case5 visited type rest id model known new silent ih =>
    obtain ⟨visited', search⟩ := ih
    simp only [firstPaging?_cons, known, new, if_false, silent, Option.none_or]
    rcases search.split with ⟨paging, hit, args⟩ | ⟨between, args, later⟩
    · rw [hit]
      exact ⟨visited', .argument known new silent args⟩
    · exact ⟨visited', .next known new silent args later⟩

theorem leadsTo_of_firstPaging? (hit : graph.firstPaging? [] [type] = some paging) :
    graph.LeadsToPaging type paging := by
  obtain ⟨visited', search⟩ := searches_firstPaging? graph [] [type]
  rw [hit] at search
  obtain ⟨_, member, leads⟩ := search.sound
  obtain rfl := List.mem_singleton.mp member
  exact leads

/-- Nothing is found only for a type that leads to no paging. -/
theorem firstPaging?_eq_none_iff :
    graph.firstPaging? [] [type] = none ↔ ∀ paging, ¬ graph.LeadsToPaging type paging := by
  constructor
  · intro miss paging
    obtain ⟨visited', search⟩ := searches_firstPaging? graph [] [type]
    rw [miss] at search
    exact search.complete List.mem_cons_self
  · intro nowhere
    cases hit : graph.firstPaging? [] [type] with
    | none => rfl
    | some paging => exact absurd (leadsTo_of_firstPaging? hit) (nowhere paging)

def responsePaging? (graph : TypeGraph) (response : ResponseDecl) : Option Paging :=
  response.type.bind fun type => graph.firstPaging? [] [type]

theorem pageable?_eq (graph : TypeGraph) (operation : Operation) :
    graph.pageable? operation =
      (operation.responses.findSome? graph.responsePaging?).map .ofPaging := by
  unfold pageable?
  induction operation.responses with
  | nil => rfl
  | cons response rest ih =>
    rw [List.filterMap_cons, List.findSome?_cons, responsePaging?]
    cases response.type with
    | none => exact ih
    | some type =>
      rw [List.findSome?_cons, Option.bind_some, ih]
      cases graph.firstPaging? [] [type] <;> rfl

theorem responsePaging?_eq_none_iff {response : ResponseDecl} :
    graph.responsePaging? response = none ↔
      ∀ type ∈ response.type, ∀ paging, ¬ graph.LeadsToPaging type paging := by
  simp only [responsePaging?, Option.bind_eq_none_iff, firstPaging?_eq_none_iff, Option.mem_def]

/-- An operation answers page by page exactly if the type of some response is a model from which
template arguments lead to one with paging, and then the pages are those of such a model of the
first response that has one. To find that out no model is looked at twice for one response. -/
theorem paging_is_found_iff (graph : TypeGraph) (operation : Operation) :
    ((graph.pageable? operation).isSome ↔ ∃ response ∈ operation.responses, ∃ type paging,
      response.type = some type ∧ graph.LeadsToPaging type paging) ∧
    (∀ page, graph.pageable? operation = some page → ∃ before response after type paging,
      operation.responses = before ++ response :: after ∧
      (∀ earlier ∈ before, ∀ type ∈ earlier.type, ∀ other, ¬ graph.LeadsToPaging type other) ∧
      response.type = some type ∧ graph.LeadsToPaging type paging ∧ page.Describes paging) ∧
    ∀ type, ∃ looked, graph.Searches [] [type] looked (graph.firstPaging? [] [type]) ∧
      looked.Nodup ∧ looked.length ≤ graph.types.size := by
  refine ⟨?_, fun page paged => ?_, fun type => ?_⟩
  · rw [pageable?_eq, Option.isSome_map, ← Option.ne_none_iff_isSome, ne_eq,
      List.findSome?_eq_none_iff]
    simp only [responsePaging?_eq_none_iff, Option.mem_def, Classical.not_forall, Classical.not_not,
      exists_prop, exists_and_left]
  · rw [pageable?_eq, Option.map_eq_some_iff] at paged
    obtain ⟨paging, found, rfl⟩ := paged
    obtain ⟨before, response, after, split, hit, missed⟩ := List.findSome?_eq_some_iff.mp found
    obtain ⟨type, typed, hit⟩ := Option.bind_eq_some_iff.mp hit
    exact ⟨before, response, after, type, paging, split,
      fun earlier member => responsePaging?_eq_none_iff.mp (missed earlier member), typed,
      leadsTo_of_firstPaging? hit, Pageable.describes_ofPaging paging⟩
  · obtain ⟨looked, search⟩ := searches_firstPaging? graph [] [type]
    have distinct := search.distinct .nil
    exact ⟨looked, search, distinct.distinct,
      Visited.le_size { distinct with many := Nat.le_refl _ }⟩

/-- Behind a model that is an argument of itself, and among arguments that were looked at. -/
example : let graph : TypeGraph := {
      version := "1"
      types := .ofEntries [
        ("Loop", .model { templateArgs := [.named "Loop", .named "Twin", .named "Page"] }),
        ("Twin", .model { templateArgs := [.named "Loop", .named "string"] }),
        ("Page", .model { base := some "Base" }),
        ("Base", .model { paged := some { nextLinkSegments := ["more"] } })] }
    let operation : Operation := {
      name := "list"
      verb := .get
      path := "/pages"
      responses := [{ type := some (.named "Twin") }] }
    graph.pageable? operation = some { nextLinkName := "more" } := by
  cbv

end TypeGraph
end WireSchema
