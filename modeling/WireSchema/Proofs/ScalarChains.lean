import WireSchema.Proofs.References
import WireSchema.Proofs.Walks

/-! The way from a declared scalar to the builtin one that it derives from. Each scalar has one base
at most, so a way that comes to an end passes no scalar twice, and following the bases finds it
exactly if there is one. -/
namespace WireSchema.ScalarChain

/-- The scalars that are passed from a scalar on, and the chain that they make up. -/
inductive Unwinds (graph : TypeGraph) : TypeId → List TypeId → ScalarChain → Prop
  | root {id : TypeId} {decl : ScalarType} :
      graph.declaration? id = some (.scalar decl) → decl.base = none →
      Unwinds graph id [id] ⟨root graph id decl, [decl.constraints]⟩
  | builtin {id : TypeId} {decl : ScalarType} {base : String} {builtin : BuiltinScalar} :
      graph.declaration? id = some (.scalar decl) → decl.base = some base →
      graph.resolveName base = .ok (.builtin builtin) →
      Unwinds graph id [id] ⟨builtin, [decl.constraints]⟩
  | base {id next : TypeId} {decl decl' : ScalarType} {base : String} {path : List TypeId}
      {chain : ScalarChain} :
      graph.declaration? id = some (.scalar decl) → decl.base = some base →
      graph.resolveName base = .ok (.declared next (.scalar decl')) →
      Unwinds graph next path chain →
      Unwinds graph id (id :: path) { chain with layers := decl.constraints :: chain.layers }

variable {graph : TypeGraph} {id t : TypeId} {path path' seen : List TypeId}
  {chain chain' : ScalarChain} {fuel : Nat}

namespace Unwinds

theorem unique (one : Unwinds graph id path chain) (other : Unwinds graph id path' chain') :
    path = path' ∧ chain = chain' := by
  induction one generalizing path' chain' with
  | root here rootless =>
    cases other <;> simp_all
  | builtin here has found =>
    cases other <;> simp_all
  | base here has found _ ih =>
    cases other with
    | root here' rootless => simp_all
    | builtin here' has' found' => simp_all
    | base here' has' found' further =>
      obtain rfl := Declaration.scalar.inj (Option.some.inj (here.symm.trans here'))
      obtain rfl := Option.some.inj (has.symm.trans has')
      obtain ⟨rfl, -⟩ := Resolved.declared.inj (Except.ok.inj (found.symm.trans found'))
      obtain ⟨rfl, rfl⟩ := ih further
      exact ⟨rfl, rfl⟩

/-- From each scalar on the way the rest of the way is its own. -/
theorem suffix (unwinds : Unwinds graph id path chain) (member : t ∈ path) :
    ∃ path' chain', Unwinds graph t path' chain' ∧ path' <:+ path := by
  induction unwinds with
  | root here rootless =>
    obtain rfl := List.mem_singleton.mp member
    exact ⟨_, _, .root here rootless, List.suffix_rfl⟩
  | builtin here has found =>
    obtain rfl := List.mem_singleton.mp member
    exact ⟨_, _, .builtin here has found, List.suffix_rfl⟩
  | base here has found further ih =>
    rcases List.mem_cons.mp member with rfl | later
    · exact ⟨_, _, .base here has found further, List.suffix_rfl⟩
    · obtain ⟨path', chain', own, rest⟩ := ih later
      exact ⟨path', chain', own, rest.trans (List.suffix_cons ..)⟩

/-- No scalar is passed twice: the way from its second place would be the whole way. -/
theorem nodup (unwinds : Unwinds graph id path chain) : path.Nodup := by
  induction unwinds with
  | root => exact List.pairwise_singleton ..
  | builtin => exact List.pairwise_singleton ..
  | base here has found further ih =>
    refine List.nodup_cons.mpr ⟨fun again => ?_, ih⟩
    obtain ⟨path', chain', own, rest⟩ := further.suffix again
    obtain ⟨rfl, -⟩ := own.unique (.base here has found further)
    have := rest.length_le
    rw [List.length_cons] at this
    omega

/-- Scalars have places of their own, so no way is longer than the list of declarations. -/
theorem length_le (unwinds : Unwinds graph id path chain) : path.length ≤ graph.types.size := by
  have inside : ∀ t ∈ path, t.index < graph.types.size := by
    intro t member
    obtain ⟨_, _, own, -⟩ := unwinds.suffix member
    cases own with
    | root here | builtin here | base here => exact TypeGraph.index_lt_of_declaration? here
  exact TypeGraph.Visited.le_size ⟨unwinds.nodup, inside, Nat.le_refl _⟩

/-- Following the bases finds a way that none of the scalars in `seen` stands on. -/
theorem follow_eq (unwinds : Unwinds graph id path chain) (apart : ∀ t ∈ path, t ∉ seen)
    (enough : path.length ≤ fuel) : follow graph fuel seen id = .ok chain := by
  induction unwinds generalizing seen fuel with
  | root here rootless =>
    obtain ⟨fuel, rfl⟩ := Nat.exists_eq_add_of_le' enough
    have new := apart _ (List.mem_singleton_self _)
    simp [follow, here, rootless, new, pure, Except.pure]
  | builtin here has found =>
    obtain ⟨fuel, rfl⟩ := Nat.exists_eq_add_of_le' enough
    have new := apart _ (List.mem_singleton_self _)
    simp [follow, here, has, new, found, pure, Except.pure, bind, Except.bind]
  | @base id next decl _ _ path chain here has found further ih =>
    obtain ⟨fuel, rfl⟩ : ∃ k, fuel = k + 1 := Nat.exists_eq_add_one.mpr (by grind)
    obtain ⟨first, -⟩ := List.nodup_cons.mp (nodup (.base here has found further))
    have new := apart _ List.mem_cons_self
    have rest : follow graph fuel (id :: seen) next = .ok chain := by
      refine ih (fun t member => ?_) (by simpa using enough)
      rw [List.mem_cons, not_or]
      exact ⟨fun same => first (same ▸ member), apart t (List.mem_cons_of_mem _ member)⟩
    simp [follow, here, has, new, found, rest, pure, Except.pure, bind, Except.bind]

end Unwinds

theorem unwinds_of_follow (followed : follow graph fuel seen id = .ok chain) :
    ∃ path, Unwinds graph id path chain := by
  induction fuel generalizing seen id chain with
  | zero => cases followed
  | succ fuel ih =>
    unfold follow at followed
    split at followed
    case h_2 => cases followed
    rename_i decl here
    split at followed
    · cases followed
    split at followed
    · rename_i rootless
      cases followed
      exact ⟨_, .root here rootless⟩
    rename_i base has
    cases found : graph.resolveName base with
    | error e => simp [found, bind, Except.bind] at followed
    | ok resolved =>
      simp only [found, bind, Except.bind] at followed
      split at followed
      · cases followed
        exact ⟨_, .builtin here has found⟩
      · rename_i next decl'
        cases below : follow graph fuel (id :: seen) next with
        | error e => simp [below] at followed
        | ok rest =>
          simp only [below] at followed
          cases followed
          obtain ⟨path, further⟩ := ih below
          exact ⟨_, .base here has found further⟩
      · cases followed

/-- A declared scalar has a chain exactly if there is a way from it to a builtin one. -/
theorem ofDeclared_eq_ok_iff :
    ofDeclared graph id = .ok chain ↔ ∃ path, Unwinds graph id path chain := by
  constructor
  · exact unwinds_of_follow
  · rintro ⟨path, unwinds⟩
    exact unwinds.follow_eq (by simp) (Nat.le_succ_of_le unwinds.length_le)

def HasBase (graph : TypeGraph) (id : TypeId) (name : String) : Prop :=
  ∃ decl, graph.declaration? id = some (.scalar decl) ∧ decl.base = some name

/-- One scalar is the base of another one. -/
def Derives (graph : TypeGraph) (id base : TypeId) : Prop :=
  ∃ name decl, HasBase graph id name ∧ graph.resolveName name = .ok (.declared base (.scalar decl))

/-- A scalar without base, or with one that is builtin. -/
inductive EndsIn (graph : TypeGraph) (last : TypeId) : BuiltinScalar → Prop
  | root {decl : ScalarType} :
      graph.declaration? last = some (.scalar decl) → decl.base = none →
      EndsIn graph last (root graph last decl)
  | builtin {name : String} {builtin : BuiltinScalar} :
      HasBase graph last name → graph.resolveName name = .ok (.builtin builtin) →
      EndsIn graph last builtin

/-- Why a walk can neither go on to a base nor end there, and the failure that this is: the name is
unknown, the base was passed before, or it is no scalar. -/
def Fails (graph : TypeGraph) (path : List TypeId) (name : String) (e : ResolveError) : Prop :=
  match graph.resolveName name with
  | .error unknown => e = unknown
  | .ok (.declared base (.scalar _)) => base ∈ path ∧ e = .unknownType (graph.key base)
  | .ok (.builtin _) => False
  | .ok _ => e = .unknownType name

def constraints? (graph : TypeGraph) (id : TypeId) : Option Constraints :=
  match graph.declaration? id with
  | some (.scalar decl) => some decl.constraints
  | _ => none

variable {base last : TypeId} {decl : ScalarType} {builtin : BuiltinScalar} {e e' : ResolveError}
  {name name' : String}

theorem HasBase.unique (one : HasBase graph id name) (two : HasBase graph id name') :
    name = name' := by
  obtain ⟨decl, here, has⟩ := one
  obtain ⟨decl', here', has'⟩ := two
  obtain rfl := Declaration.scalar.inj (Option.some.inj (here.symm.trans here'))
  exact Option.some.inj (has.symm.trans has')

theorem Derives.unique {other : TypeId} (one : Derives graph id base)
    (two : Derives graph id other) : base = other := by
  obtain ⟨name, decl, has, found⟩ := one
  obtain ⟨name', decl', has', found'⟩ := two
  obtain rfl := has.unique has'
  exact (Resolved.declared.inj (Except.ok.inj (found.symm.trans found'))).1

theorem EndsIn.resolve (ends : EndsIn graph last builtin) (has : HasBase graph last name) :
    graph.resolveName name = .ok (.builtin builtin) := by
  cases ends with
  | root here rootless =>
    obtain ⟨decl, here', has⟩ := has
    obtain rfl := Declaration.scalar.inj (Option.some.inj (here.symm.trans here'))
    cases rootless.symm.trans has
  | builtin has' found => exact has'.unique has ▸ found

theorem EndsIn.stuck (ends : EndsIn graph last builtin) (here : path.getLast? = some last) :
    Walk.Stuck (Derives graph) path := by
  rintro last' here' base ⟨name, decl, has, found⟩
  obtain rfl := Option.some.inj (here.symm.trans here')
  cases found.symm.trans (ends.resolve has)

namespace Fails

theorem stuck (fails : Fails graph path name e) (has : HasBase graph last name)
    (here : path.getLast? = some last) : Walk.Stuck (Derives graph) path := by
  rintro last' here' base ⟨name', decl, has', found⟩
  obtain rfl := Option.some.inj (here.symm.trans here')
  obtain rfl := has.unique has'
  rw [Fails, found] at fails
  exact fails.1

theorem not_endsIn (fails : Fails graph path name e) (has : HasBase graph last name) :
    ¬ EndsIn graph last builtin := by
  intro ends
  rwa [Fails, ends.resolve has] at fails

theorem unique (fails : Fails graph path name e) (other : Fails graph path name e') : e = e' := by
  unfold Fails at fails other
  split at fails <;> simp_all

end Fails

theorem layers_cons {rest : List TypeId} {layers : List Constraints}
    (here : graph.declaration? id = some (.scalar decl))
    (listed : (id :: rest).map (constraints? graph) = layers.map some) :
    ∃ others, layers = decl.constraints :: others ∧
      rest.map (constraints? graph) = others.map some := by
  have own : constraints? graph id = some decl.constraints := by simp [constraints?, here]
  cases layers with
  | nil => cases listed
  | cons first others =>
    rw [List.map_cons, List.map_cons, own] at listed
    obtain ⟨same, listed⟩ := List.cons.inj listed
    exact ⟨others, by rw [Option.some.inj same], listed⟩

/-- A way to a builtin scalar is a walk that ends there, with the constraints on the way. -/
theorem unwinds_iff : Unwinds graph id path chain ↔
    ∃ last, Walk (Derives graph) id path ∧ path.getLast? = some last ∧
      EndsIn graph last chain.builtin ∧ path.map (constraints? graph) = chain.layers.map some := by
  constructor
  · intro unwinds
    have distinct := unwinds.nodup
    induction unwinds with
    | root here rootless =>
      exact ⟨_, .single _ _, rfl, .root here rootless, by simp [constraints?, here]⟩
    | builtin here has found =>
      exact ⟨_, .single _ _, rfl, .builtin ⟨_, here, has⟩ found, by simp [constraints?, here]⟩
    | base here has found further ih =>
      obtain ⟨new, distinct⟩ := List.nodup_cons.mp distinct
      obtain ⟨last, walk, ends, endsIn, listed⟩ := ih distinct
      refine ⟨last, walk.cons ⟨_, _, ⟨_, here, has⟩, found⟩ new, ?_, endsIn, ?_⟩
      · rw [List.getLast?_cons, ends, Option.getD_some]
      · simp [constraints?, here, listed]
  · rintro ⟨last, walk, ends, endsIn, listed⟩
    obtain ⟨builtin, layers⟩ := chain
    change EndsIn graph last builtin at endsIn
    obtain ⟨rest, rfl⟩ := List.head?_eq_some_iff.mp walk.starts
    induction rest generalizing id layers with
    | nil =>
      obtain rfl : id = last := Option.some.inj ends
      cases endsIn with
      | root here rootless =>
        obtain ⟨others, rfl, ended⟩ := layers_cons here listed
        obtain rfl := List.map_eq_nil_iff.mp ended.symm
        exact .root here rootless
      | builtin has found =>
        obtain ⟨decl, here, has⟩ := has
        obtain ⟨others, rfl, ended⟩ := layers_cons here listed
        obtain rfl := List.map_eq_nil_iff.mp ended.symm
        exact .builtin here has found
    | cons next rest ih =>
      obtain ⟨⟨name, decl', ⟨decl, here, has⟩, found⟩, further⟩ := walk.tail
      obtain ⟨others, rfl, later⟩ := layers_cons here listed
      exact .base here has found (ih others further ends later)

/-- A scalar that was passed before is a failure. -/
theorem follow_of_mem (here : graph.declaration? id = some (.scalar decl)) (passed : id ∈ seen) :
    follow graph fuel seen id = .error (.unknownType (graph.key id)) := by
  cases fuel with
  | zero => rfl
  | succ fuel => simp [follow, here, passed, throw, throwThe, MonadExceptOf.throw]

/-- A scalar from which the bases lead nowhere fails for the reason that ends the walk. -/
theorem fails_of_follow {start : TypeId} {n : Nat}
    (walk : Walk (Derives graph) start (id :: seen).reverse)
    (here : graph.declaration? id = some (.scalar decl)) (visited : graph.Visited n seen)
    (enough : graph.types.size < n + fuel) (failed : follow graph fuel seen id = .error e) :
    ∃ path last name, Walk (Derives graph) start path ∧ path.getLast? = some last ∧
      HasBase graph last name ∧ Fails graph path name e := by
  have short := visited.le_size
  induction fuel generalizing n seen id decl with
  | zero => omega
  | succ fuel ih =>
    have ends : (id :: seen).reverse.getLast? = some id := by simp
    have new : id ∉ seen := (List.nodup_cons.mp (List.nodup_reverse.mp walk.distinct)).1
    simp only [follow, here, List.contains_iff_mem, new, if_false] at failed
    cases has : decl.base with
    | none => simp [has, pure, Except.pure] at failed
    | some name =>
      have base : HasBase graph id name := ⟨decl, here, has⟩
      simp only [has] at failed
      cases found : graph.resolveName name with
      | error unknown =>
        simp only [found, bind, Except.bind] at failed
        exact ⟨_, id, name, walk, ends, base, by simpa [Fails, found] using failed.symm⟩
      | ok resolved =>
        simp only [found, bind, Except.bind] at failed
        split at failed
        · cases failed
        · rename_i next decl'
          have derives : Derives graph id next := ⟨name, decl', base, found⟩
          have there : graph.declaration? next = some (.scalar decl') :=
            (@TypeGraph.resolve_declared graph (.named name) _ _ found).2
          cases below : follow graph fuel (id :: seen) next with
          | ok chain => simp [below, pure, Except.pure] at failed
          | error e' =>
            simp only [below] at failed
            obtain rfl := Except.error.inj failed
            by_cases passed : next ∈ id :: seen
            · rw [follow_of_mem there passed] at below
              refine ⟨_, id, name, walk, ends, base, ?_⟩
              rw [Fails, found]
              exact ⟨List.mem_reverse.mpr passed, (Except.error.inj below).symm⟩
            · have walk' : Walk (Derives graph) start (next :: id :: seen).reverse := by
                rw [List.reverse_cons]
                exact walk.extend ends derives (mt List.mem_reverse.mp passed)
              have visited' := visited.cons (TypeGraph.index_lt_of_declaration? here) new
              exact ih walk' there visited' (by omega) below visited'.le_size
        · rename_i noBuiltin noScalar
          cases failed
          refine ⟨_, id, name, walk, ends, base, ?_⟩
          rw [Fails, found]
          split <;> simp_all

theorem ofDeclared_eq_error_iff (here : graph.declaration? id = some (.scalar decl)) :
    ofDeclared graph id = .error e ↔
      ∃ path last name, Walk (Derives graph) id path ∧ path.getLast? = some last ∧
        HasBase graph last name ∧ Fails graph path name e := by
  have walked (e : ResolveError) (run : ofDeclared graph id = .error e) :=
    fails_of_follow (.single _ id) here .nil (by omega) run
  have onlyWay (a b c : TypeId) (one : Derives graph a b) (two : Derives graph a c) : b = c :=
    one.unique two
  refine ⟨walked e, ?_⟩
  rintro ⟨path, last, name, walk, ends, has, fails⟩
  cases run : ofDeclared graph id with
  | ok chain =>
    obtain ⟨path', unwinds⟩ := ofDeclared_eq_ok_iff.mp run
    obtain ⟨last', walk', ends', endsIn, -⟩ := unwinds_iff.mp unwinds
    obtain rfl := walk.unique onlyWay walk' (fails.stuck has ends) (endsIn.stuck ends')
    obtain rfl := Option.some.inj (ends.symm.trans ends')
    exact absurd endsIn (fails.not_endsIn has)
  | error e' =>
    obtain ⟨path', last', name', walk', ends', has', fails'⟩ := walked e' run
    obtain rfl := walk.unique onlyWay walk' (fails.stuck has ends) (fails'.stuck has' ends')
    obtain rfl := Option.some.inj (ends.symm.trans ends')
    obtain rfl := has.unique has'
    rw [fails.unique fails']

/-- A declared scalar has a chain exactly if the walk from base to base, on which no scalar comes
twice, ends at a builtin base or at a scalar without base. The chain has the constraints of the
scalars on the way, each once, the most derived first. Otherwise a base that was passed before, is
no scalar or is unknown is the failure. More fuel makes no difference. -/
theorem chain_is_walk (here : graph.declaration? id = some (.scalar decl)) :
    (∀ chain, ofDeclared graph id = .ok chain ↔
      ∃ path last, Walk (Derives graph) id path ∧ path.getLast? = some last ∧
        EndsIn graph last chain.builtin ∧ path.map (constraints? graph) = chain.layers.map some) ∧
    (∀ e, ofDeclared graph id = .error e ↔
      ∃ path last name, Walk (Derives graph) id path ∧ path.getLast? = some last ∧
        HasBase graph last name ∧ Fails graph path name e) ∧
    ∀ fuel, graph.types.size < fuel → follow graph fuel [] id = ofDeclared graph id := by
  refine ⟨fun chain => ?_, fun e => ofDeclared_eq_error_iff here, fun fuel enough => ?_⟩
  · rw [ofDeclared_eq_ok_iff]
    exact exists_congr fun _ => unwinds_iff
  · exact TypeGraph.follow_eq .nil (by omega) (by omega) id

/-- Codes are labels, and these are texts of a kind that takes its name from the builtin one. The
graph's own kind of id is its own base. -/
def codes : TypeGraph where
  version := "1"
  types := .ofEntries [
    ("Code", .scalar { base := some "Label", constraints := { maxLength := some 8 } }),
    ("Label", .scalar { base := some "string", constraints := { minLength := some 1 } }),
    ("string", .scalar { constraints := { pattern := some "[a-z]*" } }),
    ("uuid", .scalar { base := some "uuid" })]

/-- Three scalars are on the way from a code, and an id leads to nothing but itself. -/
theorem codes_are_walked :
    codes.declaration? ⟨0⟩ = some (.scalar
      { base := some "Label", constraints := { maxLength := some 8 } }) ∧
    (∃ path last, Walk (Derives codes) ⟨0⟩ path ∧ path.getLast? = some last ∧
      EndsIn codes last .string ∧ path.map (constraints? codes) =
        [some { maxLength := some 8 }, some { minLength := some 1 },
          some { pattern := some "[a-z]*" }]) ∧
    codes.declaration? ⟨3⟩ = some (.scalar { base := some "uuid" }) ∧
    ∃ path last name, Walk (Derives codes) ⟨3⟩ path ∧ path.getLast? = some last ∧
      HasBase codes last name ∧ Fails codes path name (.unknownType "uuid") :=
  ⟨rfl, ((chain_is_walk rfl).1 _).mp (rfl : ofDeclared codes ⟨0⟩ = .ok
      ⟨.string, [{ maxLength := some 8 }, { minLength := some 1 }, { pattern := some "[a-z]*" }]⟩),
    rfl, ((chain_is_walk rfl).2.1 _).mp rfl⟩

end WireSchema.ScalarChain
