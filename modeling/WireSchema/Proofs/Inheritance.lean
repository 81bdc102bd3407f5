import WireSchema.Proofs.References

/-! What a model inherits. Of the declarations of a name along a chain of bases the last one counts:
the property is there if that declaration is visible, and it is as declared there. The chain of a
base is the part of the model's own chain that ends with the base, unless bases form a cycle; then
it may begin with models that come later in the model's chain. -/
namespace WireSchema.TypeGraph

variable {graph : TypeGraph} {discriminators : List String} {v : Visibility}
  {owner id host : TypeId} {properties : List EffectiveProperty} {name : String} {decl : Property}
  {e : EffectiveProperty}
  {chain above below : List TypeId}

def own? (graph : TypeGraph) (owner : TypeId) (name : String) : Option Property :=
  (graph.model? owner).bind (·.properties.get? name)

/-- The last declaration of a name along a chain, with the model that makes it. -/
def latest? (graph : TypeGraph) (name : String) : List TypeId → Option (TypeId × Property)
  | [] => none
  | owner :: rest => (graph.latest? name rest).or ((graph.own? owner name).map (owner, ·))

theorem latest?_append (graph : TypeGraph) (name : String) (above below : List TypeId) :
    graph.latest? name (above ++ below) =
      (graph.latest? name below).or (graph.latest? name above) := by
  induction above with
  | nil => simp [latest?]
  | cons owner rest ih => rw [List.cons_append, latest?, ih, latest?, Option.or_assoc]

theorem latest?_eq_none_iff :
    graph.latest? name chain = none ↔ ∀ owner ∈ chain, graph.own? owner name = none := by
  induction chain with
  | nil => simp [latest?]
  | cons owner rest ih => simp [latest?, Option.or_eq_none_iff, ih, and_comm]

def effective (discriminators : List String) (v : Visibility) (owner : TypeId) (name : String)
    (decl : Property) : EffectiveProperty where
  name := name
  decl := decl
  owner := owner
  required := !decl.optional || discriminators.contains name
  readOnly := v == .read && decl.isReadOnly

/-- A declaration takes the place of all others of its name. -/
theorem mem_declare : e ∈ declare discriminators v owner properties name decl ↔
    if e.name = name then decl.isVisible v ∧ e = effective discriminators v owner name decl
    else e ∈ properties := by
  unfold declare
  by_cases visible : decl.isVisible v
  · by_cases known : properties.any (·.name == name)
    · simp only [visible, if_true, known, List.mem_map, true_and]
      constructor
      · rintro ⟨p, member, rfl⟩
        by_cases same : p.name = name
        · simp [same, effective]
        · simp [same, member]
      · split
        · rintro rfl
          obtain ⟨p, member, same⟩ := List.any_eq_true.mp known
          exact ⟨p, member, by simp [eq_of_beq same, effective]⟩
        · exact fun member => ⟨e, member, by simp [*]⟩
    · have absent : ∀ p ∈ properties, p.name ≠ name := by simpa using known
      simp only [visible, if_true, known, Bool.false_eq_true, if_false, List.mem_append,
        List.mem_singleton, true_and]
      split
      · rename_i same
        exact ⟨fun found => found.resolve_left fun member => absent e member same, .inr⟩
      · rename_i differ
        refine ⟨fun found => found.resolve_right ?_, .inl⟩
        rintro rfl
        exact differ rfl
  · simp only [visible, Bool.false_eq_true, if_false, List.mem_filter, decide_not,
      Bool.not_eq_true', decide_eq_false_iff_not, false_and]
    split <;> simp [*]

def declareAll (graph : TypeGraph) (discriminators : List String) (v : Visibility)
    (properties : List EffectiveProperty) (owner : TypeId) : List EffectiveProperty :=
  match graph.model? owner with
  | none => properties
  | some model =>
    model.properties.entries.foldl
      (fun properties d => declare discriminators v owner properties d.1 d.2) properties

theorem collect_eq (graph : TypeGraph) (chain : List TypeId) (discriminators : List String)
    (v : Visibility) : graph.collect chain discriminators v =
      chain.foldl (graph.declareAll discriminators v) [] := rfl

theorem mem_declareEntries {entries : List (String × Property)}
    (distinct : (entries.map Prod.fst).Nodup) :
    e ∈ entries.foldl (fun ps d => declare discriminators v owner ps d.1 d.2) properties ↔
      match entries.lookup e.name with
      | some decl => decl.isVisible v ∧ e = effective discriminators v owner e.name decl
      | none => e ∈ properties := by
  induction entries generalizing properties with
  | nil => rfl
  | cons d rest ih =>
    obtain ⟨name, decl⟩ := d
    rw [List.map_cons, List.nodup_cons] at distinct
    rw [List.foldl_cons, ih distinct.2, List.lookup_cons]
    by_cases same : e.name = name
    · have last : rest.lookup name = none := by
        rw [List.lookup_eq_none_iff]
        intro p member
        have other : p.1 ≠ name := fun same => distinct.1 (List.mem_map.mpr ⟨p, member, same⟩)
        simpa using other.symm
      simp [same, last, mem_declare]
    · have other : (e.name == name) = false := by simpa using same
      simp only [other, mem_declare, same, if_false]

theorem mem_declareAll : e ∈ graph.declareAll discriminators v properties owner ↔
    match graph.own? owner e.name with
    | some decl => decl.isVisible v ∧ e = effective discriminators v owner e.name decl
    | none => e ∈ properties := by
  unfold declareAll own?
  cases graph.model? owner with
  | none => rfl
  | some model => exact mem_declareEntries model.properties.nodup

/-- What is in a payload is what is declared last, if it is visible. -/
theorem mem_collect : e ∈ graph.collect chain discriminators v ↔
    ∃ owner decl, graph.latest? e.name chain = some (owner, decl) ∧ decl.isVisible v ∧
      e = effective discriminators v owner e.name decl := by
  have collected (properties : List EffectiveProperty) :
      e ∈ chain.foldl (graph.declareAll discriminators v) properties ↔
      match graph.latest? e.name chain with
      | some (owner, decl) => decl.isVisible v ∧ e = effective discriminators v owner e.name decl
      | none => e ∈ properties := by
    induction chain generalizing properties with
    | nil => rfl
    | cons owner rest ih =>
      rw [List.foldl_cons, ih, latest?]
      cases graph.latest? e.name rest with
      | some last => rfl
      | none =>
        simp only [mem_declareAll, Option.none_or]
        cases graph.own? owner e.name <;> rfl
  rw [collect_eq, collected]
  cases graph.latest? e.name chain with
  | none => simp
  | some last =>
    constructor
    · exact fun found => ⟨last.1, last.2, rfl, found⟩
    · rintro ⟨_, _, ⟨⟩, found⟩
      exact found

theorem mem_names_collect : name ∈ (graph.collect chain discriminators v).map (·.name) ↔
    ∃ owner decl, graph.latest? name chain = some (owner, decl) ∧ decl.isVisible v := by
  rw [List.mem_map]
  constructor
  · rintro ⟨e, member, rfl⟩
    obtain ⟨owner, decl, last, visible, -⟩ := mem_collect.mp member
    exact ⟨owner, decl, last, visible⟩
  · rintro ⟨owner, decl, last, visible⟩
    exact ⟨effective discriminators v owner name decl,
      mem_collect.mpr ⟨owner, decl, last, visible, rfl⟩, rfl⟩

theorem nodup_declare (distinct : (properties.map (·.name)).Nodup) :
    ((declare discriminators v owner properties name decl).map (·.name)).Nodup := by
  unfold declare
  split
  · split
    · have kept : (properties.map fun p => if p.name = name
          then effective discriminators v owner name decl else p).map (·.name) =
            properties.map (·.name) := by
        rw [List.map_map]
        refine List.map_congr_left fun p _ => ?_
        simp only [Function.comp]
        split <;> simp [effective, *]
      rw [← kept] at distinct
      exact distinct
    · rename_i absent
      rw [List.map_append, List.nodup_append]
      refine ⟨distinct, by simp, ?_⟩
      intro a known b new same
      obtain ⟨p, member, rfl⟩ := List.mem_map.mp known
      obtain rfl : b = name := by simpa using new
      exact absent (List.any_eq_true.mpr ⟨p, member, by simpa using same⟩)
  · exact distinct.sublist (List.filter_sublist.map _)

theorem nodup_collect (graph : TypeGraph) (chain : List TypeId) (discriminators : List String)
    (v : Visibility) : ((graph.collect chain discriminators v).map (·.name)).Nodup := by
  have entered (entries : List (String × Property)) (owner : TypeId)
      (properties : List EffectiveProperty) (distinct : (properties.map (·.name)).Nodup) :
      ((entries.foldl (fun ps d => declare discriminators v owner ps d.1 d.2) properties).map
        (·.name)).Nodup := by
    induction entries generalizing properties with
    | nil => exact distinct
    | cons d rest ih => exact ih _ (nodup_declare distinct)
  have collected (properties : List EffectiveProperty)
      (distinct : (properties.map (·.name)).Nodup) :
      ((chain.foldl (graph.declareAll discriminators v) properties).map (·.name)).Nodup := by
    induction chain generalizing properties with
    | nil => exact distinct
    | cons owner rest ih =>
      apply ih
      unfold declareAll
      split
      · exact distinct
      · exact entered _ owner properties distinct
  exact collected [] List.nodup_nil

/-- The base that a model names. -/
def IsBase (graph : TypeGraph) (base id : TypeId) : Prop :=
  ∃ name model, (graph.model? id).bind (·.base) = some name ∧
    graph.modelNamed name = .ok (base, model)

theorem IsBase.unique {base other : TypeId} (one : graph.IsBase base id)
    (two : graph.IsBase other id) : base = other := by
  obtain ⟨name, model, named, found⟩ := one
  obtain ⟨name', model', named', found'⟩ := two
  obtain rfl := Option.some.inj (named.symm.trans named')
  exact (Prod.mk.inj (Except.ok.inj (found.symm.trans found'))).1

/-- One step of the walk: it stops where there is no base that is new, or goes on from there. -/
theorem bases_cases {fuel : Nat} {seen bases : List TypeId}
    (run : graph.bases (fuel + 1) seen id = .ok bases) :
    bases = [] ∧ (∀ base, graph.IsBase base id → base ∈ seen) ∨
    ∃ base rest, bases = base :: rest ∧ graph.IsBase base id ∧ base ∉ seen ∧
      base.index < graph.types.size ∧ graph.bases fuel (base :: seen) base = .ok rest := by
  unfold TypeGraph.bases at run
  split at run
  · rename_i root
    refine .inl ⟨(Except.ok.inj run).symm, ?_⟩
    rintro base ⟨name, model, named, -⟩
    rw [root] at named
    cases named
  · rename_i name named
    cases found : graph.modelNamed name with
    | error e =>
      rw [found] at run
      cases run
    | ok next =>
      obtain ⟨next, model⟩ := next
      have isBase : graph.IsBase next id := ⟨name, model, named, found⟩
      simp only [found, bind, Except.bind] at run
      split at run
      · rename_i old
        refine .inl ⟨(Except.ok.inj run).symm, fun base other => ?_⟩
        rw [other.unique isBase]
        simpa using old
      · rename_i new
        cases rest : graph.bases fuel (next :: seen) next with
        | error e =>
          rw [rest] at run
          cases run
        | ok further =>
          rw [rest] at run
          exact .inr ⟨next, further, (Except.ok.inj run).symm, isBase, by simpa using new,
            index_lt_of_model? (modelNamed_ok found), rest⟩

theorem ancestry_ok (run : graph.ancestry id = .ok chain) :
    ∃ bases, graph.bases (graph.types.size + 1) [id] id = .ok bases ∧
      chain = (id :: bases).reverse := by
  unfold ancestry at run
  cases walk : graph.bases (graph.types.size + 1) [id] id with
  | error e =>
    rw [walk] at run
    cases run
  | ok bases =>
    rw [walk] at run
    exact ⟨bases, rfl, (Except.ok.inj run).symm⟩

/-- A walk that meets `host` is the walk from there from then on, with all that was passed seen. The
bases of what was passed were passed as well. -/
theorem bases_split {n fuel : Nat} {seen down up : List TypeId} (visited : graph.Visited n seen)
    (enough : graph.types.size < n + fuel)
    (run : graph.bases fuel seen id = .ok (down ++ host :: up)) :
    ∃ n' fuel', graph.Visited n' (host :: (down.reverse ++ seen)) ∧
      graph.types.size < n' + fuel' ∧
      graph.bases fuel' (host :: (down.reverse ++ seen)) host = .ok up ∧
      ∀ passed ∈ id :: down, ∀ base, graph.IsBase base passed → base ∈ host :: down := by
  induction down generalizing n fuel seen id with
  | nil =>
    cases fuel with
    | zero => simp [TypeGraph.bases, pure, Except.pure] at run
    | succ fuel =>
      rcases bases_cases run with ⟨stopped, -⟩ | ⟨base, rest, step, isBase, new, inside, walk⟩
      · simp at stopped
      obtain ⟨rfl, rfl⟩ := List.cons.inj step
      refine ⟨n + 1, fuel, visited.cons inside new, by omega, walk, ?_⟩
      intro passed member base other
      obtain rfl : passed = id := by simpa using member
      exact List.mem_singleton.mpr (other.unique isBase)
  | cons d down ih =>
    cases fuel with
    | zero => simp [TypeGraph.bases, pure, Except.pure] at run
    | succ fuel =>
      rcases bases_cases run with ⟨stopped, -⟩ | ⟨base, rest, step, isBase, new, inside, walk⟩
      · simp at stopped
      obtain ⟨rfl, rfl⟩ := List.cons.inj step
      obtain ⟨n', fuel', visited', enough', walk', passed⟩ :=
        ih (visited.cons inside new) (by omega) walk
      refine ⟨n', fuel', by simpa using visited', enough', by simpa using walk', ?_⟩
      intro other member base isBase'
      rcases List.mem_cons.mp member with rfl | later
      · simp [isBase'.unique isBase]
      · rcases List.mem_cons.mp (passed other later base isBase') with rfl | inside
        · exact List.mem_cons_self
        · exact List.mem_cons_of_mem _ (List.mem_cons_of_mem _ inside)

/-- A walk among models whose bases are among them stays there, and comes to what is new only. -/
theorem bases_within {fuel : Nat} {seen bases among : List TypeId}
    (closed : ∀ x ∈ among, ∀ base, graph.IsBase base x → base ∈ among) (member : id ∈ among)
    (run : graph.bases fuel seen id = .ok bases) : ∀ x ∈ bases, x ∈ among ∧ x ∉ seen := by
  induction fuel generalizing seen bases id with
  | zero =>
    cases run
    simp
  | succ fuel ih =>
    rcases bases_cases run with ⟨rfl, -⟩ | ⟨base, rest, rfl, isBase, new, -, walk⟩
    · simp
    · have inside := closed id member base isBase
      intro x passed
      rcases List.mem_cons.mp passed with rfl | later
      · exact ⟨inside, new⟩
      · obtain ⟨known, unseen⟩ := ih inside walk x later
        exact ⟨known, fun old => unseen (List.mem_cons_of_mem _ old)⟩

/-- Two walks are at one model. The first has seen more than the second, but only models from below
more, and it has seen the base of each model that it has left. -/
structure Ahead (graph : TypeGraph) (below seen seen' : List TypeId) (id : TypeId) : Prop where
  fewer : ∀ x ∈ seen', x ∈ seen
  more : ∀ x ∈ seen, x ∈ seen' ∨ x ∈ below
  here : id ∈ seen
  closed : ∀ x ∈ seen, x ≠ id → ∀ base, graph.IsBase base x → base ∈ seen

theorem Ahead.step {seen seen' : List TypeId} {base : TypeId}
    (ahead : graph.Ahead below seen seen' id) (isBase : graph.IsBase base id) :
    graph.Ahead below (base :: seen) (base :: seen') base where
  fewer _ member := (List.mem_cons.mp member).elim (· ▸ List.mem_cons_self)
    fun old => List.mem_cons_of_mem _ (ahead.fewer _ old)
  more x member := by
    rcases List.mem_cons.mp member with rfl | old
    · exact .inl List.mem_cons_self
    · exact (ahead.more x old).imp_left (List.mem_cons_of_mem _)
  here := List.mem_cons_self
  closed x member differ other isBase' := by
    have old : x ∈ seen := (List.mem_cons.mp member).resolve_left differ
    by_cases same : x = id
    · subst same
      rw [isBase'.unique isBase]
      exact List.mem_cons_self
    · exact List.mem_cons_of_mem _ (ahead.closed x old same other isBase')

/-- The walk that has seen more stops no later. What the second still comes to is from below. -/
theorem bases_extend {n n' fuel fuel' : Nat} {seen seen' bases bases' : List TypeId}
    (ahead : graph.Ahead below seen seen' id)
    (enough : graph.types.size < n + fuel) (visited : graph.Visited n seen)
    (enough' : graph.types.size < n' + fuel') (visited' : graph.Visited n' seen')
    (run : graph.bases fuel seen id = .ok bases) (run' : graph.bases fuel' seen' id = .ok bases') :
    ∃ rest, bases' = bases ++ rest ∧ ∀ x ∈ rest, x ∈ below := by
  induction fuel' generalizing n n' fuel seen seen' bases bases' id with
  | zero =>
    have := visited'.le_size
    omega
  | succ fuel' ih =>
    obtain ⟨fuel, rfl⟩ : ∃ k, fuel = k + 1 := ⟨fuel - 1, by have := visited.le_size; omega⟩
    rcases bases_cases run with ⟨rfl, old⟩ | ⟨base, rest, rfl, isBase, new, inside, walk⟩
    · -- With its base seen as well, what was seen is closed, and the other walk stays in it.
      refine ⟨bases', rfl, fun x passed => ?_⟩
      have all : ∀ x ∈ seen, ∀ base, graph.IsBase base x → base ∈ seen := by
        intro x member base isBase
        by_cases same : x = id
        · exact old base (same ▸ isBase)
        · exact ahead.closed x member same base isBase
      obtain ⟨known, unseen⟩ := bases_within all ahead.here run' x passed
      exact (ahead.more x known).resolve_left unseen
    · rcases bases_cases run' with ⟨-, old'⟩ | ⟨base', rest', rfl, isBase', new', -, walk'⟩
      · exact absurd (ahead.fewer base (old' base isBase)) new
      obtain rfl := isBase'.unique isBase
      obtain ⟨rest'', rfl, only⟩ := ih (ahead.step isBase) (by omega) (visited.cons inside new)
        (by omega) (visited'.cons inside new') walk walk'
      exact ⟨rest'', rfl, only⟩

/-- The chain of a base ends like the part of the chain above it. What may stand in front of that
comes later in the chain. -/
theorem ancestry_of_base {model : ModelType} (here : graph.model? id = some model)
    (run : graph.ancestry id = .ok (above ++ host :: below))
    (own : graph.ancestry host = .ok chain) :
    ∃ further, chain = further ++ above ++ [host] ∧ ∀ x ∈ further, x ∈ below := by
  obtain ⟨bases, walk, split⟩ := ancestry_ok run
  obtain ⟨bases', walk', rfl⟩ := ancestry_ok own
  have order : id :: bases = below.reverse ++ host :: above.reverse := by
    rw [← List.reverse_inj, ← split]
    simp
  -- The base is the model itself, or the model's walk comes to it later.
  cases down : below.reverse with
  | nil =>
    obtain ⟨rfl, rfl⟩ := List.cons.inj (down ▸ order)
    obtain rfl := Except.ok.inj (walk.symm.trans walk')
    exact ⟨[], by simp, by simp⟩
  | cons d down' =>
    obtain ⟨rfl, rfl⟩ := List.cons.inj (down ▸ order)
    have start : graph.Visited 1 [id] :=
      Visited.nil.cons (index_lt_of_model? here) (by simp)
    obtain ⟨n, fuel, visited, enough, rest, passed⟩ := bases_split start (by omega) walk
    have beneath : ∀ x, x ∈ id :: down' ↔ x ∈ below := by
      intro x
      rw [← down, List.mem_reverse]
    have known : ∀ x, x ∈ host :: (down'.reverse ++ [id]) ↔ x = host ∨ x ∈ below := by
      intro x
      rw [← beneath]
      simp [or_comm]
    have alone : graph.Visited 1 [host] :=
      Visited.nil.cons (visited.inside host List.mem_cons_self) (by simp)
    have ahead : graph.Ahead below (host :: (down'.reverse ++ [id])) [host] host := by
      refine ⟨by simp [known], by simp [known], List.mem_cons_self, ?_⟩
      intro x member differ base isBase
      have inside := ((known x).mp member).resolve_left differ
      rw [known]
      exact (List.mem_cons.mp (passed x ((beneath x).mpr inside) base isBase)).imp_right
        fun later => (beneath base).mp (List.mem_cons_of_mem _ later)
    obtain ⟨further, rfl, only⟩ := bases_extend ahead enough visited (by omega) alone rest walk'
    exact ⟨further.reverse, by simp, fun x member => only x (List.mem_reverse.mp member)⟩

/-- A name that is not declared below a base is declared last where it is for the base itself. -/
theorem latest?_of_base {model : ModelType} (here : graph.model? id = some model)
    (run : graph.ancestry id = .ok (above ++ host :: below)) (own : graph.ancestry host = .ok chain)
    (inherited : graph.latest? name below = none) :
    graph.latest? name (above ++ host :: below) = graph.latest? name chain := by
  obtain ⟨further, rfl, only⟩ := ancestry_of_base here run own
  have nothing : graph.latest? name further = none := by
    rw [latest?_eq_none_iff] at inherited ⊢
    exact fun owner member => inherited owner (only owner member)
  have parts : above ++ host :: below = (above ++ [host]) ++ below := by simp
  rw [parts, latest?_append _ _ (above ++ [host]), inherited, List.append_assoc,
    latest?_append _ _ further, nothing, Option.none_or, Option.or_none]

theorem payload_of_ancestry (walk : graph.ancestry id = .ok chain) (v : Visibility) :
    graph.payload id v = .ok (graph.collect chain (graph.discriminatorNames chain) v) := by
  simp [TypeGraph.payload, walk, bind, Except.bind, pure, Except.pure]

theorem ancestry_of_payload {payload : List EffectiveProperty}
    (run : graph.payload id v = .ok payload) : ∃ chain, graph.ancestry id = .ok chain ∧
      payload = graph.collect chain (graph.discriminatorNames chain) v := by
  cases walk : graph.ancestry id with
  | error e => simp [TypeGraph.payload, walk, bind, Except.bind] at run
  | ok chain =>
    rw [payload_of_ancestry walk] at run
    exact ⟨chain, rfl, (Except.ok.inj run).symm⟩

theorem nodup_payload {payload : List EffectiveProperty} (run : graph.payload id v = .ok payload) :
    (payload.map (·.name)).Nodup := by
  obtain ⟨chain, -, rfl⟩ := ancestry_of_payload run
  exact nodup_collect ..

end WireSchema.TypeGraph
