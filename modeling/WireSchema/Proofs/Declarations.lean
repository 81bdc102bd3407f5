import WireSchema.Proofs.Inheritance

/-! The order of a payload. What the models of a chain declare is one list, the root's declarations
first. A name starts there at its first declaration after the last hidden one, and the properties of
a payload stand in the order in which their names start. -/
namespace WireSchema

structure Declared where
  owner : TypeId
  name : String
  decl : Property

section Starts

variable {ds : List Declared} {d : Declared} {v : Visibility} {name : String} {names : List String}
  {i j : Nat}

/-- A name is hidden by the declaration at a position, or by one behind it. -/
def HiddenFrom (ds : List Declared) (v : Visibility) (name : String) (j : Nat) : Prop :=
  ∃ k d, j ≤ k ∧ ds[k]? = some d ∧ d.name = name ∧ d.decl.isVisible v = false

/-- A name starts at its first declaration after the last hidden one. -/
structure StartsAt (ds : List Declared) (v : Visibility) (name : String) (i : Nat) : Prop where
  declared : ∃ d, ds[i]? = some d ∧ d.name = name
  shown : ¬ HiddenFrom ds v name i
  first : ∀ j d, ds[j]? = some d → d.name = name → j < i → HiddenFrom ds v name j

/-- No declaration of a name is behind all that hide it. -/
def Gone (ds : List Declared) (v : Visibility) (name : String) : Prop :=
  ∀ j d, ds[j]? = some d → d.name = name → HiddenFrom ds v name j

theorem StartsAt.unique (here : StartsAt ds v name i) (there : StartsAt ds v name j) : i = j := by
  obtain ⟨d, known, named⟩ := here.declared
  obtain ⟨d', known', named'⟩ := there.declared
  rcases Nat.lt_trichotomy i j with before | same | after
  · exact absurd (there.first i d known named before) here.shown
  · exact same
  · exact absurd (here.first j d' known' named' after) there.shown

theorem declared_append {e : Declared} :
    (ds ++ [d])[j]? = some e ↔ ds[j]? = some e ∨ j = ds.length ∧ e = d := by
  rw [List.getElem?_append]
  split
  · exact ⟨.inl, fun found => found.resolve_right fun last => by omega⟩
  · rename_i behind
    have beyond : ds[j]? = none := List.getElem?_eq_none (Nat.le_of_not_lt behind)
    simp only [beyond, reduceCtorEq, false_or, List.getElem?_singleton]
    constructor
    · split
      · rintro ⟨⟩
        exact ⟨by omega, rfl⟩
      · simp
    · rintro ⟨rfl, rfl⟩
      simp

theorem HiddenFrom.append (hidden : HiddenFrom ds v name j) : HiddenFrom (ds ++ [d]) v name j := by
  obtain ⟨k, e, behind, known, rest⟩ := hidden
  exact ⟨k, e, behind, declared_append.mpr (.inl known), rest⟩

theorem StartsAt.append (start : StartsAt ds v name i)
    (kept : d.name = name → d.decl.isVisible v) : StartsAt (ds ++ [d]) v name i where
  declared := by
    obtain ⟨e, known, named⟩ := start.declared
    exact ⟨e, declared_append.mpr (.inl known), named⟩
  shown := by
    rintro ⟨k, e, behind, known, named, hidden⟩
    rcases declared_append.mp known with old | ⟨-, rfl⟩
    · exact start.shown ⟨k, e, behind, old, named, hidden⟩
    · rw [kept named] at hidden
      cases hidden
  first j e known named before := by
    have inside : i < ds.length := by
      obtain ⟨_, known, -⟩ := start.declared
      exact (List.getElem?_eq_some_iff.mp known).1
    rcases declared_append.mp known with old | ⟨rfl, -⟩
    · exact (start.first j e old named before).append
    · omega

theorem Gone.append (gone : Gone ds v name) (differ : d.name ≠ name) :
    Gone (ds ++ [d]) v name := by
  intro j e known named
  rcases declared_append.mp known with old | ⟨-, rfl⟩
  · exact (gone j e old named).append
  · exact absurd named differ

theorem gone_of_hidden (hidden : d.decl.isVisible v = false) : Gone (ds ++ [d]) v d.name := by
  intro j e known _
  have inside := (List.getElem?_eq_some_iff.mp known).1
  rw [List.length_append, List.length_singleton] at inside
  exact ⟨ds.length, d, by omega, List.getElem?_concat_length, rfl, hidden⟩

/-- A name that is gone starts again with the next visible declaration. -/
theorem Gone.startsAt (gone : Gone ds v d.name) (visible : d.decl.isVisible v) :
    StartsAt (ds ++ [d]) v d.name ds.length where
  declared := ⟨d, List.getElem?_concat_length, rfl⟩
  shown := by
    rintro ⟨k, e, behind, known, -, hidden⟩
    rcases declared_append.mp known with old | ⟨-, rfl⟩
    · have := (List.getElem?_eq_some_iff.mp old).1
      omega
    · rw [visible] at hidden
      cases hidden
  first j e known named before := by
    rcases declared_append.mp known with old | ⟨rfl, -⟩
    · exact (gone j e old named).append
    · omega

def StartsBefore (ds : List Declared) (v : Visibility) (name name' : String) : Prop :=
  ∃ i j, StartsAt ds v name i ∧ StartsAt ds v name' j ∧ i < j

theorem StartsBefore.append {name' : String} (before : StartsBefore ds v name name')
    (kept : d.name = name → d.decl.isVisible v) (kept' : d.name = name' → d.decl.isVisible v) :
    StartsBefore (ds ++ [d]) v name name' := by
  obtain ⟨i, j, start, start', less⟩ := before
  exact ⟨i, j, start.append kept, start'.append kept', less⟩

/-- Names stand in the order in which they start in the declarations, and all others are gone. -/
structure Arranged (ds : List Declared) (v : Visibility) (names : List String) : Prop where
  gone : ∀ name, name ∉ names → Gone ds v name
  starts : ∀ name ∈ names, ∃ i, StartsAt ds v name i
  ordered : names.Pairwise (StartsBefore ds v)

theorem arranged_nil (v : Visibility) : Arranged [] v [] where
  gone _ _ _ _ known := by simp at known
  starts := by simp
  ordered := .nil

def declareName (v : Visibility) (names : List String) (d : Declared) : List String :=
  if d.decl.isVisible v then if d.name ∈ names then names else names ++ [d.name]
  else names.filter (· ≠ d.name)

/-- A visible declaration of a name that is there moves no start. -/
theorem Arranged.again (arranged : Arranged ds v names) (visible : d.decl.isVisible v)
    (known : d.name ∈ names) : Arranged (ds ++ [d]) v names where
  gone name absent := by
    refine (arranged.gone name absent).append ?_
    rintro rfl
    exact absent known
  starts name member := by
    obtain ⟨i, start⟩ := arranged.starts name member
    exact ⟨i, start.append fun _ => visible⟩
  ordered := arranged.ordered.imp fun before => before.append (fun _ => visible) fun _ => visible

/-- A name that is not there starts at the end, behind all others. -/
theorem Arranged.push (arranged : Arranged ds v names) (visible : d.decl.isVisible v)
    (new : d.name ∉ names) : Arranged (ds ++ [d]) v (names ++ [d.name]) := by
  have last := (arranged.gone d.name new).startsAt visible
  have kept (name : String) (old : name ∈ names) :
      ∃ i, i < ds.length ∧ StartsAt (ds ++ [d]) v name i := by
    obtain ⟨i, start⟩ := arranged.starts name old
    obtain ⟨_, known, -⟩ := start.declared
    exact ⟨i, (List.getElem?_eq_some_iff.mp known).1, start.append fun _ => visible⟩
  refine ⟨fun name absent => ?_, fun name member => ?_, ?_⟩
  · rw [List.mem_append, not_or, List.mem_singleton] at absent
    exact (arranged.gone name absent.1).append (Ne.symm absent.2)
  · rcases List.mem_append.mp member with old | only
    · obtain ⟨i, -, start⟩ := kept name old
      exact ⟨i, start⟩
    · exact List.mem_singleton.mp only ▸ ⟨_, last⟩
  · rw [List.pairwise_append]
    refine ⟨arranged.ordered.imp fun before => before.append (fun _ => visible) fun _ => visible,
      List.pairwise_singleton _ _, fun name old name' only => ?_⟩
    obtain rfl := List.mem_singleton.mp only
    obtain ⟨i, less, start⟩ := kept name old
    exact ⟨i, _, start, last, less⟩

/-- A hidden declaration takes its own name away and moves no other start. -/
theorem Arranged.hide (arranged : Arranged ds v names) (hidden : d.decl.isVisible v = false) :
    Arranged (ds ++ [d]) v (names.filter (· ≠ d.name)) := by
  have other {name : String} (kept : decide (name ≠ d.name)) :
      d.name = name → d.decl.isVisible v := fun same => absurd same.symm (by simpa using kept)
  refine ⟨fun name absent => ?_, fun name member => ?_, ?_⟩
  · by_cases same : name = d.name
    · exact same ▸ gone_of_hidden hidden
    · exact (arranged.gone name fun old => absent (by simp [old, same])).append (Ne.symm same)
  · obtain ⟨old, kept⟩ := List.mem_filter.mp member
    exact (arranged.starts name old).imp fun _ start => start.append (other kept)
  · rw [List.pairwise_filter]
    exact arranged.ordered.imp fun before kept kept' => before.append (other kept) (other kept')

theorem Arranged.declare (arranged : Arranged ds v names) (d : Declared) :
    Arranged (ds ++ [d]) v (declareName v names d) := by
  unfold declareName
  split
  · rename_i visible
    split
    · exact arranged.again visible ‹_›
    · exact arranged.push visible ‹_›
  · rename_i hidden
    exact arranged.hide (by simpa using hidden)

theorem Arranged.foldl (arranged : Arranged ds v names) (more : List Declared) :
    Arranged (ds ++ more) v (more.foldl (declareName v) names) := by
  induction more generalizing ds names with
  | nil => rwa [List.append_nil]
  | cons d rest ih => simpa using ih (arranged.declare d)

end Starts

namespace TypeGraph

variable {graph : TypeGraph} {discriminators : List String} {v : Visibility} {id : TypeId}
  {properties : List EffectiveProperty} {name : String} {chain : List TypeId}

/-- What the models of a chain declare, in the order of the chain. -/
def declarations (graph : TypeGraph) (chain : List TypeId) : List Declared :=
  chain.flatMap fun owner =>
    ((graph.model? owner).map (·.properties.entries)).getD [] |>.map fun e => ⟨owner, e.1, e.2⟩

theorem collect_eq_foldl (graph : TypeGraph) (chain : List TypeId) (discriminators : List String)
    (v : Visibility) : graph.collect chain discriminators v =
      (graph.declarations chain).foldl
        (fun properties d => declare discriminators v d.owner properties d.name d.decl) [] := by
  rw [collect_eq, declarations, List.foldl_flatMap]
  congr 1
  funext properties owner
  rw [List.foldl_map, declareAll]
  cases graph.model? owner <;> rfl

theorem names_declare (properties : List EffectiveProperty) (d : Declared) :
    (declare discriminators v d.owner properties d.name d.decl).map (·.name) =
      declareName v (properties.map (·.name)) d := by
  unfold declare declareName
  split
  · have known : properties.any (·.name == d.name) ↔ d.name ∈ properties.map (·.name) := by
      simp [List.any_eq_true]
    simp only [known]
    split
    · rw [List.map_map]
      refine List.map_congr_left fun p _ => ?_
      simp only [Function.comp]
      split <;> simp [*]
    · simp
  · simp [List.filter_map, Function.comp_def]

/-- What is collected along a chain stands in the order in which the names start. -/
theorem arranged_collect (graph : TypeGraph) (chain : List TypeId) (discriminators : List String)
    (v : Visibility) : Arranged (graph.declarations chain) v
      ((graph.collect chain discriminators v).map (·.name)) := by
  have names (ds : List Declared) (properties : List EffectiveProperty) :
      (ds.foldl (fun ps d => declare discriminators v d.owner ps d.name d.decl) properties).map
        (·.name) = ds.foldl (declareName v) (properties.map (·.name)) := by
    induction ds generalizing properties with
    | nil => rfl
    | cons d rest ih => rw [List.foldl_cons, ih, names_declare, List.foldl_cons]
  rw [collect_eq_foldl, names]
  exact (arranged_nil v).foldl _

theorem mem_discriminatorNames : name ∈ graph.discriminatorNames chain ↔
    ∃ host ∈ chain, (graph.model? host).bind (·.discriminator) = some name :=
  List.mem_filterMap

/-- The properties of a model under a visibility, said without the loop that collects them. A name
is there if its last declaration along the bases is visible, and the property is what is declared
there. Names do not occur twice and stand in the order in which they start. -/
theorem payload_is_latest_in_order (walk : graph.ancestry id = .ok chain) (v : Visibility) :
    ∃ payload, graph.payload id v = .ok payload ∧
      (payload.map (·.name)).Nodup ∧
      (∀ name, name ∈ payload.map (·.name) ↔ ∃ owner decl,
        graph.latest? name chain = some (owner, decl) ∧ decl.isVisible v) ∧
      (∀ e ∈ payload, graph.latest? e.name chain = some (e.owner, e.decl) ∧
        (e.required ↔ e.decl.optional = false ∨
          ∃ host ∈ chain, (graph.model? host).bind (·.discriminator) = some e.name) ∧
        ∃ i, StartsAt (graph.declarations chain) v e.name i) ∧
      payload.Pairwise fun e e' => ∀ i j, StartsAt (graph.declarations chain) v e.name i →
        StartsAt (graph.declarations chain) v e'.name j → i < j := by
  have arranged := arranged_collect graph chain (graph.discriminatorNames chain) v
  refine ⟨_, payload_of_ancestry walk v, nodup_collect .., fun _ => mem_names_collect, ?_, ?_⟩
  · intro e member
    obtain ⟨owner, decl, last, -, eq⟩ := mem_collect.mp member
    refine ⟨eq ▸ last, ?_, arranged.starts e.name (List.mem_map_of_mem member)⟩
    rw [eq, ← mem_discriminatorNames]
    simp [effective]
  · refine (List.pairwise_map.mp arranged.ordered).imp ?_
    rintro e e' ⟨i, j, start, start', less⟩ i' j' other other'
    rwa [other.unique start, other'.unique start']

/-- Three models, of which the root names the last one as its base. The one in between hides a
property that the last one shows again. -/
def ring : TypeGraph where
  version := "1"
  types := .ofEntries [
    ("Root", .model {
      base := some "Leaf"
      discriminator := some "kind"
      properties := .ofEntries [("kind", { type := .named "string", optional := true }),
        ("size", { type := .named "int32" })] }),
    ("Middle", .model {
      base := some "Root"
      properties := .ofEntries [
        ("kind", { type := .named "string", optional := true, visibility := some [.create] }),
        ("color", { type := .named "string", optional := true })] }),
    ("Leaf", .model {
      base := some "Middle"
      properties := .ofEntries [("size", { type := .named "int64" }),
        ("kind", { type := .named "string", optional := true })] })]

/-- What is shown again stands last, and what is declared again where it was. -/
theorem ring_in_order : ring.ancestry ⟨2⟩ = .ok [⟨0⟩, ⟨1⟩, ⟨2⟩] ∧
    ∃ payload, ring.payload ⟨2⟩ .read = .ok payload ∧
      payload.map (·.name) = ["size", "color", "kind"] ∧
      ∀ e ∈ payload, ring.latest? e.name [⟨0⟩, ⟨1⟩, ⟨2⟩] = some (e.owner, e.decl) := by
  have walk : ring.ancestry ⟨2⟩ = .ok [⟨0⟩, ⟨1⟩, ⟨2⟩] := rfl
  obtain ⟨payload, run, -, -, each, -⟩ := payload_is_latest_in_order walk .read
  have names : payload.map (·.name) = ["size", "color", "kind"] := by
    obtain rfl := Except.ok.inj run
    rfl
  exact ⟨walk, payload, run, names, fun e member => (each e member).1⟩

end TypeGraph
end WireSchema
