import WireSchema.Proofs.Inheritance

/-! Properties that are added to the models of a graph. If they have new names and are hidden under
a visibility, the payloads under that visibility stay as they were. -/
namespace WireSchema

theorem OrderedMap.index?_eq_findIdx?_keys {κ ν : Type} [DecidableEq κ] (m : OrderedMap κ ν)
    (key : κ) : m.index? key = m.keys.findIdx? (· = key) := by
  rw [keys, List.findIdx?_map, index?]
  rfl

namespace TypeGraph

variable {graph graph' : TypeGraph} {v : Visibility} {id owner : TypeId} {chain : List TypeId}
  {model : ModelType} {properties : OrderedMap String Property} {ps : List EffectiveProperty}

/-- No model of the chain declares the name. -/
def Unused (graph : TypeGraph) (chain : List TypeId) (name : String) : Prop :=
  ∀ t ∈ chain, graph.own? t name = none

/-- The properties of a model with others among them. These are hidden, and no model that derives
from this one, or is a base of one that does, declares their names. -/
structure AddsTo (graph : TypeGraph) (v : Visibility) (owner : TypeId) (model : ModelType)
    (properties : OrderedMap String Property) : Prop where
  kept : (properties.entries.filter fun e => e.1 ∈ model.properties.keys) =
    model.properties.entries
  hidden : ∀ e ∈ properties.entries, e.1 ∉ model.properties.keys → e.2.isVisible v = false
  new : ∀ e ∈ properties.entries, e.1 ∉ model.properties.keys →
    ∀ id chain, graph.ancestry id = .ok chain → owner ∈ chain → graph.Unused chain e.1

inductive Adds (graph : TypeGraph) (v : Visibility) (owner : TypeId) :
    Declaration → Declaration → Prop
  | same {decl : Declaration} : Adds graph v owner decl decl
  | model {model : ModelType} {properties : OrderedMap String Property} :
      graph.AddsTo v owner model properties →
      Adds graph v owner (.model model) (.model { model with properties })

/-- Graphs with the same declarations, but for hidden properties that have been added. -/
structure Extends (graph : TypeGraph) (v : Visibility) (graph' : TypeGraph) : Prop where
  keys : graph'.types.keys = graph.types.keys
  adds : ∀ id decl decl', graph.declaration? id = some decl → graph'.declaration? id = some decl' →
    Adds graph v id decl decl'

theorem AddsTo.refl (graph : TypeGraph) (v : Visibility) (owner : TypeId) (model : ModelType) :
    graph.AddsTo v owner model model.properties where
  kept := List.filter_eq_self.mpr fun _ member => decide_eq_true (List.mem_map_of_mem member)
  hidden _ member new := absurd (List.mem_map_of_mem member) new
  new _ member new := absurd (List.mem_map_of_mem member) new

theorem find?_eq_declaration? (graph : TypeGraph) (name : String) : graph.find? name =
    (graph.types.index? name).bind fun i => (graph.declaration? ⟨i⟩).map (⟨i⟩, ·) := by
  unfold find? declaration?
  cases graph.types.index? name with
  | none => rfl
  | some i =>
    simp only [Option.bind_eq_bind, Option.bind_some]
    cases graph.types.entryAt? i <;> rfl

/-- To declare what is hidden and was not there changes nothing. -/
theorem declare_of_absent {discriminators : List String} {name : String} {decl : Property}
    (hidden : decl.isVisible v = false) (absent : ∀ p ∈ ps, p.name ≠ name) :
    declare discriminators v owner ps name decl = ps := by
  unfold declare
  rw [hidden, if_neg (by simp), List.filter_eq_self]
  simpa using absent

def Known (graph : TypeGraph) (chain : List TypeId) (ps : List EffectiveProperty) : Prop :=
  ∀ p ∈ ps, ¬ graph.Unused chain p.name

theorem Known.declare {discriminators : List String} {name : String} {decl : Property}
    (known : graph.Known chain ps) (used : ¬ graph.Unused chain name) :
    graph.Known chain (declare discriminators v owner ps name decl) := by
  intro p member
  rw [mem_declare] at member
  split at member
  · rename_i same
    exact same ▸ used
  · exact known p member

/-- Of all declarations that are entered, those of unused names make no difference. -/
theorem declareEntries_filter (discriminators : List String) (owner : TypeId)
    {entries : List (String × Property)} {keys : List String} (known : graph.Known chain ps)
    (used : ∀ name ∈ keys, ¬ graph.Unused chain name)
    (added : ∀ e ∈ entries, e.1 ∉ keys → e.2.isVisible v = false ∧ graph.Unused chain e.1) :
    entries.foldl (fun ps e => declare discriminators v owner ps e.1 e.2) ps =
        (entries.filter fun e => e.1 ∈ keys).foldl
          (fun ps e => declare discriminators v owner ps e.1 e.2) ps ∧
      graph.Known chain
        (entries.foldl (fun ps e => declare discriminators v owner ps e.1 e.2) ps) := by
  induction entries generalizing ps with
  | nil => exact ⟨rfl, known⟩
  | cons e rest ih =>
    rw [List.forall_mem_cons] at added
    by_cases listed : e.1 ∈ keys
    · rw [List.filter_cons_of_pos (by simpa using listed), List.foldl_cons, List.foldl_cons]
      exact ih (known.declare (used e.1 listed)) added.2
    · obtain ⟨hidden, unused⟩ := added.1 listed
      have absent : ∀ p ∈ ps, p.name ≠ e.1 := fun p member same => known p member (same ▸ unused)
      rw [List.filter_cons_of_neg (by simpa using listed), List.foldl_cons,
        declare_of_absent hidden absent]
      exact ih known added.2

theorem declareAll_of_model (here : graph.model? owner = some model)
    (discriminators : List String) : graph.declareAll discriminators v ps owner =
    model.properties.entries.foldl (fun ps e => declare discriminators v owner ps e.1 e.2) ps := by
  rw [declareAll, here]

/-- Added properties make no difference to what a model of a chain declares. -/
theorem AddsTo.declareEntries (discriminators : List String)
    (adds : graph.AddsTo v owner model properties) (here : graph.model? owner = some model)
    (run : graph.ancestry id = .ok chain) (passed : owner ∈ chain) (known : graph.Known chain ps) :
    properties.entries.foldl (fun ps e => declare discriminators v owner ps e.1 e.2) ps =
        graph.declareAll discriminators v ps owner ∧
      graph.Known chain (graph.declareAll discriminators v ps owner) := by
  have used : ∀ name ∈ model.properties.keys, ¬ graph.Unused chain name := by
    intro name key unused
    have undeclared := unused owner passed
    rw [own?, here, Option.bind_some] at undeclared
    have declared := OrderedMap.isSome_get?_iff.mpr key
    rw [undeclared] at declared
    cases declared
  have entered := declareEntries_filter discriminators owner known used fun e member new =>
    ⟨adds.hidden e member new, adds.new e member new id chain run passed⟩
  have own : graph.declareAll discriminators v ps owner =
      (properties.entries.filter fun e => e.1 ∈ model.properties.keys).foldl
        (fun ps e => declare discriminators v owner ps e.1 e.2) ps := by
    rw [adds.kept, declareAll_of_model here]
  exact ⟨entered.1.trans own.symm, own.trans entered.1.symm ▸ entered.2⟩

namespace Extends

theorem size (more : graph.Extends v graph') : graph'.types.size = graph.types.size := by
  simpa [OrderedMap.keys, OrderedMap.size] using congrArg List.length more.keys

theorem declaration?_cases (more : graph.Extends v graph') (id : TypeId) :
    graph.declaration? id = none ∧ graph'.declaration? id = none ∨
    ∃ decl decl', graph.declaration? id = some decl ∧ graph'.declaration? id = some decl' ∧
      Adds graph v id decl decl' := by
  have held : (graph'.declaration? id).isSome = (graph.declaration? id).isSome := by
    have lengths : graph'.types.entries.length = graph.types.entries.length := more.size
    rw [Bool.eq_iff_iff]
    simp [declaration?, OrderedMap.entryAt?, lengths]
  cases here : graph.declaration? id with
  | none =>
    rw [here] at held
    exact .inl ⟨rfl, Option.isNone_iff_eq_none.mp (by simpa using held)⟩
  | some decl =>
    rw [here, Option.isSome_some] at held
    obtain ⟨decl', there⟩ := Option.isSome_iff_exists.mp held
    exact .inr ⟨decl, decl', rfl, there, more.adds id decl decl' here there⟩

/-- A type stands for the same as before, but for added properties. -/
theorem resolve_cases (more : graph.Extends v graph') (type : TypeRef) :
    graph'.resolve type = graph.resolve type ∨
    ∃ id model properties, graph.resolve type = .ok (.declared id (.model model)) ∧
      graph'.resolve type = .ok (.declared id (.model { model with properties })) := by
  cases type with
  | literal value => exact .inl rfl
  | named name =>
    have found : graph'.types.index? name = graph.types.index? name := by
      simp only [OrderedMap.index?_eq_findIdx?_keys, more.keys]
    simp only [resolve, resolveName, find?_eq_declaration?, found]
    cases graph.types.index? name with
    | none => exact .inl rfl
    | some i =>
      rcases more.declaration?_cases ⟨i⟩ with ⟨here, there⟩ | ⟨decl, decl', here, there, adds⟩
      · left
        simp [here, there]
      · cases adds with
        | same =>
          left
          simp [here, there]
        | @model model properties =>
          exact .inr ⟨⟨i⟩, model, properties, by simp [here], by simp [there]⟩

theorem model?_cases (more : graph.Extends v graph') (id : TypeId) :
    graph.model? id = none ∧ graph'.model? id = none ∨
    ∃ model properties, graph.model? id = some model ∧
      graph'.model? id = some { model with properties } ∧ graph.AddsTo v id model properties := by
  unfold model?
  rcases more.declaration?_cases id with ⟨here, there⟩ | ⟨decl, decl', here, there, adds⟩
  · exact .inl (by simp [here, there])
  · rw [here, there]
    cases adds with
    | same =>
      cases decl with
      | model model => exact .inr ⟨model, model.properties, rfl, rfl, .refl ..⟩
      | _ => exact .inl ⟨rfl, rfl⟩
    | model adds => exact .inr ⟨_, _, rfl, rfl, adds⟩

/-- What a model says beside its properties is the same as before. -/
theorem model?_header {α : Type} (more : graph.Extends v graph') (f : ModelType → Option α)
    (header : ∀ (model : ModelType) properties, f { model with properties } = f model)
    (id : TypeId) : (graph'.model? id).bind f = (graph.model? id).bind f := by
  rcases more.model?_cases id with ⟨here, there⟩ | ⟨model, properties, here, there, -⟩
  · rw [here, there]
  · rw [here, there]
    exact header model properties

theorem modelNamed_id (more : graph.Extends v graph') (name : String) :
    (graph'.modelNamed name).map Prod.fst = (graph.modelNamed name).map Prod.fst := by
  have resolved := more.resolve_cases (.named name)
  simp only [resolve] at resolved
  unfold modelNamed
  rcases resolved with same | ⟨id, model, properties, here, there⟩
  · rw [same]
  · rw [here, there]
    rfl

theorem bases_eq (more : graph.Extends v graph') (fuel : Nat) (seen : List TypeId) (id : TypeId) :
    graph'.bases fuel seen id = graph.bases fuel seen id := by
  induction fuel generalizing seen id with
  | zero => rfl
  | succ fuel ih =>
    unfold bases
    rw [more.model?_header (·.base) fun _ _ => rfl]
    cases (graph.model? id).bind (·.base) with
    | none => rfl
    | some name =>
      have named := more.modelNamed_id name
      simp only
      cases found : graph.modelNamed name with
      | error e =>
        cases found' : graph'.modelNamed name with
        | error e' =>
          obtain rfl : e' = e := by simpa [found, found', Except.map] using named
          rfl
        | ok next => simp [found, found', Except.map] at named
      | ok next =>
        cases found' : graph'.modelNamed name with
        | error e' => simp [found, found', Except.map] at named
        | ok next' =>
          have same : next'.1 = next.1 := by simpa [found, found', Except.map] using named
          simp only [bind, Except.bind, same, ih]

theorem ancestry_eq (more : graph.Extends v graph') (id : TypeId) :
    graph'.ancestry id = graph.ancestry id := by
  rw [ancestry, ancestry, more.size, more.bases_eq]

theorem collect_eq (more : graph.Extends v graph') (run : graph.ancestry id = .ok chain)
    (discriminators : List String) :
    graph'.collect chain discriminators v = graph.collect chain discriminators v := by
  have each (owner : TypeId) (passed : owner ∈ chain) (ps : List EffectiveProperty)
      (known : graph.Known chain ps) :
      graph'.declareAll discriminators v ps owner = graph.declareAll discriminators v ps owner ∧
        graph.Known chain (graph.declareAll discriminators v ps owner) := by
    rcases more.model?_cases owner with ⟨here, there⟩ | ⟨model, properties, here, there, adds⟩
    · rw [declareAll, declareAll, here, there]
      exact ⟨rfl, known⟩
    · obtain ⟨entered, known⟩ := adds.declareEntries discriminators here run passed known
      exact ⟨(declareAll_of_model there discriminators).trans entered, known⟩
  have all (owners : List TypeId) (passed : ∀ owner ∈ owners, owner ∈ chain)
      (ps : List EffectiveProperty) (known : graph.Known chain ps) :
      owners.foldl (graph'.declareAll discriminators v) ps =
        owners.foldl (graph.declareAll discriminators v) ps := by
    induction owners generalizing ps with
    | nil => rfl
    | cons owner rest ih =>
      rw [List.forall_mem_cons] at passed
      obtain ⟨entered, known⟩ := each owner passed.1 ps known
      rw [List.foldl_cons, List.foldl_cons, entered, ih passed.2 _ known]
  exact all chain (fun _ member => member) [] fun _ member => absurd member List.not_mem_nil

/-- Nothing of what was added shows under the visibility. -/
theorem payload_eq (more : graph.Extends v graph') (id : TypeId) :
    graph'.payload id v = graph.payload id v := by
  have discriminators (chain : List TypeId) :
      graph'.discriminatorNames chain = graph.discriminatorNames chain := by
    unfold discriminatorNames
    simp only [more.model?_header (·.discriminator) fun _ _ => rfl]
  unfold payload
  rw [more.ancestry_eq]
  cases run : graph.ancestry id with
  | error e => rfl
  | ok chain =>
    simp only [bind, Except.bind, discriminators, more.collect_eq run]

end Extends

end TypeGraph
end WireSchema
