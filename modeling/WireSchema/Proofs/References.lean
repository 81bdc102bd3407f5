import WireSchema.Convert

/-! The walks that a conversion takes through a graph before it meets a model that it builds: from
type to type, from scalar to base, from model to base, and from union to its only variant. At every
place there is one way on at most, so a walk ends unless it comes back to where it was. -/
namespace WireSchema.TypeGraph

open Converter

variable {graph : TypeGraph}

/-- Declarations that a walk has been at, each of them once, and `n` of them at least. -/
structure Visited (graph : TypeGraph) (n : Nat) (ids : List TypeId) : Prop where
  distinct : ids.Nodup
  inside : ∀ id ∈ ids, id.index < graph.types.size
  many : n ≤ ids.length

namespace Visited

variable {n : Nat} {ids : List TypeId} {id : TypeId}

theorem nil : graph.Visited 0 [] where
  distinct := List.nodup_nil
  inside := by simp
  many := Nat.le_refl _

theorem cons (visited : graph.Visited n ids) (inside : id.index < graph.types.size)
    (new : id ∉ ids) : graph.Visited (n + 1) (id :: ids) where
  distinct := List.nodup_cons.mpr ⟨new, visited.distinct⟩
  inside := by simpa using ⟨inside, visited.inside⟩
  many := Nat.succ_le_succ visited.many

theorem weaken (visited : graph.Visited (n + 1) ids) : graph.Visited n ids :=
  { visited with many := Nat.le_of_succ_le visited.many }

/-- Declarations have places of their own, so no more of them are visited than there are. -/
theorem le_size (visited : graph.Visited n ids) : n ≤ graph.types.size := by
  have apart : (ids.map TypeId.index).Nodup :=
    List.pairwise_map.mpr (visited.distinct.imp fun ne same => ne (by grind [TypeId]))
  have short : (ids.map TypeId.index).length ≤ (List.range graph.types.size).length := by
    apply apart.length_le_of_subset
    intro i member
    obtain ⟨id, known, rfl⟩ := List.mem_map.mp member
    exact List.mem_range.mpr (visited.inside id known)
  rw [List.length_map, List.length_range] at short
  exact Nat.le_trans visited.many short

end Visited

theorem index_lt_of_declaration? {id : TypeId} {decl : Declaration}
    (here : graph.declaration? id = some decl) : id.index < graph.types.size := by
  obtain ⟨entry, there, -⟩ := Option.map_eq_some_iff.mp here
  exact (List.getElem?_eq_some_iff.mp there).1

theorem find?_spec {name : String} {id : TypeId} {decl : Declaration}
    (found : graph.find? name = some (id, decl)) :
    name ∈ graph.types.keys ∧ graph.declaration? id = some decl := by
  simp only [find?, Option.bind_eq_bind, Option.bind_eq_some_iff] at found
  obtain ⟨i, index, entry, there, same⟩ := found
  obtain ⟨decl', here⟩ := OrderedMap.index?_eq_some_iff.mp index
  obtain rfl := Option.some.inj (here.symm.trans there)
  cases same
  exact ⟨List.mem_map_of_mem (List.mem_of_getElem? there), by simp [declaration?, there]⟩

theorem resolve_declared {type : TypeRef} {id : TypeId} {decl : Declaration}
    (resolved : graph.resolve type = .ok (.declared id decl)) :
    type ∈ graph.types.keys.map .named ∧ graph.declaration? id = some decl := by
  cases type with
  | literal => cases resolved
  | named name =>
    have found : graph.find? name = some (id, decl) := by
      simp only [resolve, resolveName] at resolved
      split at resolved <;> cases resolved
      assumption
    obtain ⟨key, here⟩ := find?_spec found
    exact ⟨List.mem_map_of_mem key, here⟩

theorem model?_of_resolve {type : TypeRef} {id : TypeId} {model : ModelType}
    (resolved : graph.resolve type = .ok (.declared id (.model model))) :
    graph.model? id = some model := by
  simp [model?, (resolve_declared resolved).2]

theorem modelNamed_ok {name : String} {id : TypeId} {model : ModelType}
    (found : graph.modelNamed name = .ok (id, model)) :
    graph.model? id = some model := by
  unfold modelNamed at found
  cases resolved : graph.resolve (.named name) with
  | error e => simp_all [resolve, bind, Except.bind]
  | ok r =>
    have declared := @resolve_declared graph (.named name)
    simp only [resolve] at resolved declared
    simp only [resolved, bind, Except.bind] at found
    split at found <;> cases found
    simp [model?, (declared resolved).2]

theorem index_lt_of_model? {id : TypeId} {model : ModelType}
    (here : graph.model? id = some model) : id.index < graph.types.size := by
  unfold model? at here
  split at here
  · exact index_lt_of_declaration? ‹_›
  · cases here

def isNull (graph : TypeGraph) (ref : TypeRef) : Bool :=
  match graph.resolve ref with
  | .ok resolved => isNullVariant resolved
  | .error _ => false

/-- The type that a declaration is converted through: that of an array's items, of a map's values,
of the one variant that a union has besides null, or of the property that is linked to. -/
def through? (graph : TypeGraph) : Declaration → Option TypeRef
  | .scalar _ => none
  | .enum _ => none
  | .model model => if model.isRecord then model.indexer else none
  | .array decl => some decl.item
  | .union decl =>
    match decl.variants.filter (!graph.isNull ·) with
    | [ref] => some ref
    | _ => none
  | .property link =>
    match graph.modelNamed link.model with
    | .ok (_, model) => (model.properties.get? link.property).map (·.type)
    | .error _ => none

def next? (graph : TypeGraph) (type : TypeRef) : Option TypeRef :=
  match graph.resolve type with
  | .ok (.declared _ decl) => graph.through? decl
  | _ => none

def after (graph : TypeGraph) : Nat → TypeRef → Option TypeRef
  | 0, type => some type
  | n + 1, type => (graph.next? type).bind (graph.after n)

/-- No type comes back to itself, unless through a model that is more than a map. -/
def Grounded (graph : TypeGraph) : Prop := ∀ type n, graph.after (n + 1) type ≠ some type

theorem resolved_of_mapM {refs : List TypeRef} {variants : List (TypeRef × Resolved)}
    (resolved : (refs.mapM fun ref => do return (ref, ← graph.resolve ref)) = .ok variants) :
    variants.map Prod.fst = refs ∧ ∀ v ∈ variants, graph.resolve v.1 = .ok v.2 := by
  induction refs generalizing variants with
  | nil =>
    cases resolved
    simp
  | cons ref rest ih =>
    rw [List.mapM_cons] at resolved
    cases here : graph.resolve ref with
    | error e =>
      rw [here] at resolved
      cases resolved
    | ok r =>
      rw [here] at resolved
      cases there : rest.mapM fun ref => do return (ref, ← graph.resolve ref) with
      | error e =>
        rw [there] at resolved
        cases resolved
      | ok others =>
        rw [there] at resolved
        cases resolved
        exact ⟨congrArg (ref :: ·) (ih there).1, List.forall_mem_cons.mpr ⟨here, (ih there).2⟩⟩

/-- The variants that are not null are those that a conversion may go on with. -/
theorem nonNull_of_mapM {refs : List TypeRef}
    {variants : List (TypeRef × Resolved)}
    (resolved : (refs.mapM fun ref => do return (ref, ← graph.resolve ref)) = .ok variants) :
    (variants.filter fun v => !isNullVariant v.2).map Prod.fst =
      refs.filter (!graph.isNull ·) := by
  obtain ⟨rfl, known⟩ := resolved_of_mapM resolved
  rw [List.filter_map]
  congr 1
  refine List.filter_congr fun v member => ?_
  simp [isNull, known v member]

theorem next?_eq {type : TypeRef} {id : TypeId} {decl : Declaration}
    (resolved : graph.resolve type = .ok (.declared id decl)) :
    graph.next? type = graph.through? decl := by
  simp [next?, resolved]

theorem mem_keys_of_next? {type next : TypeRef} (h : graph.next? type = some next) :
    type ∈ graph.types.keys.map .named := by
  unfold next? at h
  split at h
  · exact (resolve_declared ‹_›).1
  · cases h

theorem after_add (m n : Nat) (type : TypeRef) :
    graph.after (m + n) type = (graph.after m type).bind (graph.after n) := by
  induction m generalizing type with
  | zero => simp [after]
  | succ m ih =>
    rw [Nat.succ_add]
    simp only [after]
    cases graph.next? type with
    | none => rfl
    | some next => exact ih next

theorem after_eq_none_of_le {m n : Nat} {type : TypeRef} (le : m ≤ n)
    (ends : graph.after m type = none) : graph.after n type = none := by
  obtain ⟨k, rfl⟩ := Nat.exists_eq_add_of_le le
  rw [after_add, ends, Option.bind_none]

/-- If `path` are types that have been passed, none of them is met again, and there are only so many
more. -/
theorem Grounded.after_eq_none (grounded : graph.Grounded) {n : Nat} {path : List TypeRef}
    {type : TypeRef} (distinct : path.Nodup)
    (known : ∀ t ∈ path, t ∈ graph.types.keys.map .named)
    (passed : ∀ t ∈ path, ∃ k, graph.after (k + 1) t = some type)
    (long : graph.types.size < path.length + n) : graph.after n type = none := by
  induction n generalizing path type with
  | zero =>
    have short := distinct.length_le_of_subset known
    have size : (graph.types.keys.map TypeRef.named).length = graph.types.size := by
      simp [OrderedMap.keys, OrderedMap.size]
    omega
  | succ n ih =>
    cases step : graph.next? type with
    | none => simp [after, step]
    | some next =>
      have one : graph.after 1 type = some next := by simp [after, step]
      have new : type ∉ path := by
        intro member
        obtain ⟨k, back⟩ := passed type member
        exact grounded type k back
      have rest : graph.after n next = none := by
        apply ih (List.nodup_cons.mpr ⟨new, distinct⟩)
        · simpa using ⟨by simpa using mem_keys_of_next? step, by simpa using known⟩
        · intro t member
          rcases List.mem_cons.mp member with rfl | member
          · exact ⟨0, one⟩
          · obtain ⟨k, before⟩ := passed t member
            exact ⟨k + 1, by rw [after_add, before]; exact one⟩
        · rw [List.length_cons]
          omega
      simp [after, step, rest]

/-- That no type comes back to itself can be found out by following the declared ones. -/
theorem grounded_iff : graph.Grounded ↔
    ∀ name ∈ graph.types.keys, graph.after (graph.types.size + 1) (.named name) = none := by
  constructor
  · intro grounded name _
    exact grounded.after_eq_none List.nodup_nil (by simp) (by simp) (by simp)
  · intro ends type n back
    -- Whoever comes back once comes back as often as one likes.
    have again (m : Nat) : graph.after (m * (n + 1)) type = some type := by
      induction m with
      | zero => simp [after]
      | succ m ih => rw [Nat.succ_mul, after_add, ih, Option.bind_some, back]
    obtain ⟨next, step⟩ : ∃ next, graph.next? type = some next := by
      cases step : graph.next? type with
      | none => simp [after, step] at back
      | some next => exact ⟨next, rfl⟩
    obtain ⟨name, key, rfl⟩ := List.mem_map.mp (mem_keys_of_next? step)
    have ended := after_eq_none_of_le (Nat.le_mul_of_pos_right _ (Nat.succ_pos n)) (ends name key)
    rw [again] at ended
    cases ended

instance (graph : TypeGraph) : Decidable graph.Grounded := decidable_of_iff _ grounded_iff.symm

theorem Grounded.ends (grounded : graph.Grounded) (type : TypeRef) {n : Nat}
    (enough : graph.types.size < n) : graph.after n type = none :=
  grounded.after_eq_none List.nodup_nil (by simp) (by simp) (by simpa)

def onlyVariant? (graph : TypeGraph) (type : TypeRef) : Option TypeRef :=
  match graph.resolve type with
  | .ok (.declared _ (.union decl)) =>
    match decl.variants with
    | [variant] => some variant
    | _ => none
  | _ => none

theorem onlyVariant?_of_isNull {type : TypeRef} (null : graph.isNull type) :
    graph.onlyVariant? type = none := by
  unfold isNull at null
  unfold onlyVariant?
  split <;> simp_all [isNullVariant]

/-- A conversion goes on with the only variant as well, unless that is null. -/
theorem next?_of_onlyVariant? {type variant : TypeRef}
    (only : graph.onlyVariant? type = some variant) :
    graph.next? type = some variant ∨ graph.isNull variant := by
  cases null : graph.isNull variant with
  | true => exact .inr rfl
  | false =>
    left
    unfold onlyVariant? at only
    split at only
    · rename_i resolved
      split at only
      · cases only
        rw [next?_eq resolved]
        simp [through?, *]
      · cases only
    · cases only

/-- A text is looked for in the only variant, or else in the type itself. -/
theorem singleTextWithin_succ (fuel : Nat) (type : TypeRef) :
    graph.singleTextWithin (fuel + 1) type =
      match graph.onlyVariant? type with
      | some variant => graph.singleTextWithin fuel variant
      | none => graph.singleTextWithin 1 type := by
  simp only [singleTextWithin, onlyVariant?]
  cases graph.resolve type with
  | error e => rfl
  | ok resolved =>
    cases resolved with
    | declared id decl =>
      cases decl with
      | union decl =>
        obtain ⟨name, variants⟩ := decl
        rcases variants with _ | ⟨variant, _ | ⟨second, rest⟩⟩ <;> rfl
      | _ => rfl
    | literal value => cases value <;> rfl
    | _ => rfl

theorem singleTextWithin_of_isNull {type : TypeRef} (null : graph.isNull type) (fuel : Nat) :
    graph.singleTextWithin fuel type = none := by
  cases fuel with
  | zero => rfl
  | succ fuel =>
    unfold isNull at null
    unfold singleTextWithin
    split <;> simp_all [isNullVariant]

/-- Where the chain of types ends, looking further finds no other text. -/
theorem singleTextWithin_eq {n m : Nat} {type : TypeRef} (ends : graph.after n type = none)
    (le : n ≤ m) : graph.singleTextWithin m type = graph.singleTextWithin n type := by
  induction n generalizing m type with
  | zero => simp [after] at ends
  | succ n ih =>
    obtain ⟨m, rfl⟩ : ∃ k, m = k + 1 := ⟨m - 1, by omega⟩
    rw [singleTextWithin_succ, singleTextWithin_succ n]
    cases only : graph.onlyVariant? type with
    | none => rfl
    | some variant =>
      rcases next?_of_onlyVariant? only with step | null
      · exact ih (by simpa [after, step] using ends) (by omega)
      · simp [singleTextWithin_of_isNull null]

/-- There is no endless way from unions to their only variants. -/
theorem Grounded.wellFounded_onlyVariant (grounded : graph.Grounded) :
    WellFounded fun variant type => graph.onlyVariant? type = some variant := by
  have accessible (n : Nat) (type : TypeRef) (ends : graph.after n type = none) :
      Acc (fun variant type => graph.onlyVariant? type = some variant) type := by
    induction n generalizing type with
    | zero => simp [after] at ends
    | succ n ih =>
      refine .intro _ fun variant only => ?_
      rcases next?_of_onlyVariant? only with step | null
      · exact ih variant (by simpa [after, step] using ends)
      · exact .intro _ fun _ further => by simp [onlyVariant?_of_isNull null] at further
  exact ⟨fun type => accessible _ type (grounded.ends type (Nat.lt_succ_self _))⟩

/-- The walk from base to base stops by itself before it has passed more models than there are. -/
theorem bases_eq {n : Nat} {seen : List TypeId} (visited : graph.Visited n seen)
    {fuel fuel' : Nat} (enough : graph.types.size < n + fuel)
    (enough' : graph.types.size < n + fuel') (id : TypeId) :
    graph.bases fuel seen id = graph.bases fuel' seen id := by
  have short := visited.le_size
  induction fuel generalizing n seen fuel' id with
  | zero => omega
  | succ fuel ih =>
    obtain ⟨fuel', rfl⟩ : ∃ k, fuel' = k + 1 := ⟨fuel' - 1, by omega⟩
    unfold bases
    cases (graph.model? id).bind (·.base) with
    | none => rfl
    | some base =>
      simp only
      cases found : graph.modelNamed base with
      | error e => rfl
      | ok next =>
        obtain ⟨next, model⟩ := next
        simp only [bind, Except.bind]
        split
        · rfl
        · rename_i new
          have further : graph.Visited (n + 1) (next :: seen) :=
            visited.cons (index_lt_of_model? (modelNamed_ok found)) (by simpa using new)
          have rest : graph.bases fuel (next :: seen) next =
              graph.bases fuel' (next :: seen) next :=
            ih further (by omega) (by omega) next further.le_size
          rw [rest]

/-- So does the walk from scalar to base. -/
theorem follow_eq {n : Nat} {seen : List TypeId} (visited : graph.Visited n seen)
    {fuel fuel' : Nat} (enough : graph.types.size < n + fuel)
    (enough' : graph.types.size < n + fuel') (id : TypeId) :
    ScalarChain.follow graph fuel seen id = ScalarChain.follow graph fuel' seen id := by
  have short := visited.le_size
  induction fuel generalizing n seen fuel' id with
  | zero => omega
  | succ fuel ih =>
    obtain ⟨fuel', rfl⟩ : ∃ k, fuel' = k + 1 := ⟨fuel' - 1, by omega⟩
    unfold ScalarChain.follow
    split
    · rename_i decl here
      split
      · rfl
      · rename_i new
        have further : graph.Visited (n + 1) (id :: seen) :=
          visited.cons (index_lt_of_declaration? here) (by simpa using new)
        have rest (next : TypeId) : ScalarChain.follow graph fuel (id :: seen) next =
            ScalarChain.follow graph fuel' (id :: seen) next :=
          ih further (by omega) (by omega) next further.le_size
        simp only [rest]
    · rfl

end WireSchema.TypeGraph
