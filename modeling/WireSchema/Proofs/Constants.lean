import WireSchema.Proofs.Arguments
import WireSchema.Proofs.Silence

/-! Which arguments of a request are constants. A schema is one exactly if its type comes to a value
of its own. By that the parameters of an operation are sorted apart, but those of the host are not:
they are all among the arguments that vary. -/
namespace WireSchema

open ConvertM Converter

/-- A type whose conversion is that of a value, which has a form. -/
def TypeGraph.IsConstant (graph : TypeGraph) (type : TypeRef) : Prop :=
  ∃ last value, LeadsTo graph type last ∧ graph.resolve last = .ok (.literal value) ∧
    (SchemaKind.ofValues? [value]).isSome

theorem TypeGraph.IsConstant.down {graph : TypeGraph} {type ref : TypeRef}
    {layers : List Constraints} (down : HandsDown graph type ref layers)
    (constant : graph.IsConstant ref) : graph.IsConstant type := by
  obtain ⟨last, value, leads, rest⟩ := constant
  exact ⟨last, value, .down down leads, rest⟩

variable {c : Converter} {models : ModelStep} {types : TypeStep} {fuel : Nat} {type : TypeRef}
  {ctx : Context} {site : List Constraints} {g g' : Gathered} {a : Option Schema} {s : Schema}

/-- A schema, if there is one, that is no constant. -/
def Varies (a : Option Schema) : Prop := ∀ s ∈ a, s.isConst = false

theorem literal_yields {value : Json} (run : Yields (c.literal value) g a g') :
    a.isSome = (SchemaKind.ofValues? [value]).isSome ∧ ∀ s ∈ a, s.isConst := by
  unfold literal at run
  split at run
  · rename_i formless
    obtain ⟨_, _, -, run⟩ := yields_bind.mp run
    obtain ⟨rfl, -⟩ := yields_pure.mp run
    simp [formless]
  · rename_i kind found
    obtain ⟨rfl, -⟩ := yields_pure.mp run
    simp [found]

theorem intrinsic_varies (intrinsic : Intrinsic) (ref : TypeRef) :
    Gives (c.intrinsic intrinsic ref) Varies := by
  cases intrinsic with
  | null => exact .bind .any fun _ _ => .pure nofun
  | never => exact .pure nofun
  | void => exact .pure nofun
  | unknown => exact .pure (by rintro _ ⟨⟩; rfl)

theorem enumeration_varies (decl : EnumType) : Gives (c.enumeration decl site) Varies := by
  unfold enumeration
  split
  · exact .bind .any fun _ _ => .pure nofun
  · exact .bind .any fun _ _ => .pure (by rintro _ ⟨⟩; rfl)

theorem enumUnion_varies (decl : UnionType) (variants : List (TypeRef × Resolved)) :
    Gives (c.enumUnion decl variants site) Varies := by
  unfold enumUnion
  split
  · exact .bind .any fun _ _ => .pure nofun
  rename_i values scalar gathered
  split
  · exact .pure nofun
  rename_i schema chosen
  have varies : schema.isConst = false := by
    cases scalar with
    | some s =>
      cases chosen
      obtain ⟨chain, rfl⟩ := chain_of_gatherVariants (by simp) gathered _ rfl
      rfl
    | none =>
      obtain ⟨kind, -, rfl⟩ := Option.map_eq_some_iff.mp chosen
      rfl
  split
  · split
    · exact .pure (by rintro _ ⟨⟩; exact varies)
    · exact .bind .any fun _ _ => .pure (by rintro _ ⟨⟩; exact varies)
  · split
    · exact .bind .any fun _ _ => .pure nofun
    · exact .pure nofun

theorem union_const {id : TypeId} {decl : UnionType}
    (here : c.graph.resolve type = .ok (.declared id (.union decl)))
    (run : Yields (c.union types decl ctx site) g (some s) g') (const : s.isConst) :
    ∃ ref s', HandsDown c.graph type ref [] ∧ Yields (types ref ctx site) g (some s') g' ∧
      s'.isConst := by
  obtain ⟨variants, schema, nullable, chosen, -, one, same⟩ := schema_of_union run
  obtain ⟨s', rfl, rfl⟩ := Option.map_eq_some_iff.mp same.symm
  match variants with
  | [] =>
    obtain ⟨_, _, -, run⟩ := yields_bind.mp one
    simp at run
  | [(ref, r)] => exact ⟨ref, s', .variant here chosen.symm, one, const⟩
  | v :: w :: rest =>
    rw [oneOf_several (by simp)] at one
    simp [(enumUnion_varies ..).known _ _ _ one s' rfl, Schema.orNullable] at const

/-- A schema is a constant only if its type comes to a value. -/
theorem isConstant_of_yields
    (vary : ∀ id v site, Gives (models id v site) fun s => s.isConst = false)
    (run : Yields (c.typesWithin models fuel type ctx site) g (some s) g') (const : s.isConst) :
    c.graph.IsConstant type := by
  induction fuel generalizing type ctx site s with
  | zero => simp [typesWithin] at run
  | succ fuel ih =>
    obtain ⟨resolved, g₁, found, run⟩ := yields_bind.mp run
    obtain ⟨here, rfl⟩ := yields_ofResolve.mp found
    cases resolved with
    | literal value => exact ⟨type, value, .here, here, by simpa using (literal_yields run).1.symm⟩
    | builtin builtin =>
      obtain ⟨⟨⟩, -⟩ := yields_pure.mp run
      cases const
    | intrinsic intrinsic =>
      simp [(intrinsic_varies ..).known _ _ _ run s rfl] at const
    | declared id decl =>
      cases decl with
      | scalar decl =>
        obtain ⟨chain, g₂, -, run⟩ := yields_bind.mp run
        obtain ⟨⟨⟩, -⟩ := yields_pure.mp run
        cases const
      | model model =>
        simp only [declared] at run
        split at run
        · obtain ⟨additional, g₂, -, run⟩ := yields_bind.mp run
          obtain ⟨⟨⟩, -⟩ := yields_pure.mp run
          cases const
        · obtain ⟨schema, g₂, built, run⟩ := yields_bind.mp run
          obtain ⟨⟨⟩, -⟩ := yields_pure.mp run
          simp [(vary ..).known _ _ _ built] at const
      | array decl =>
        obtain ⟨item, g₂, -, run⟩ := yields_bind.mp run
        obtain ⟨⟨⟩, -⟩ := yields_pure.mp run
        cases const
      | enum decl => simp [(enumeration_varies decl).known _ _ _ run s rfl] at const
      | union decl =>
        obtain ⟨ref, s', down, run, const⟩ := union_const here run const
        exact .down down (ih run const)
      | property link =>
        obtain ⟨⟨owner, model⟩, g₂, named, run⟩ := yields_bind.mp run
        obtain ⟨resolved, rfl⟩ := yields_ofResolve.mp named
        simp only at run
        split at run
        · simp at run
        · rename_i property known
          exact .down (.link here resolved known) (ih run const)

/-- A type that comes to a value with a form is a constant wherever it is converted. -/
theorem yields_of_isConstant (constant : c.graph.IsConstant type)
    (run : Yields (c.typesWithin models fuel type ctx site) g a g') :
    ∃ s, a = some s ∧ s.isConst := by
  obtain ⟨last, value, leads, literal, form⟩ := constant
  induction leads generalizing fuel ctx site a with
  | here =>
    cases fuel with
    | zero => simp [typesWithin] at run
    | succ fuel =>
      obtain ⟨resolved, g₁, found, run⟩ := yields_bind.mp run
      obtain ⟨here, rfl⟩ := yields_ofResolve.mp found
      obtain rfl := Except.ok.inj (here.symm.trans literal)
      obtain ⟨formed, const⟩ := literal_yields run
      obtain ⟨s, rfl⟩ := Option.isSome_iff_exists.mp (formed.trans form)
      exact ⟨s, rfl, const s rfl⟩
  | down down leads ih =>
    cases fuel with
    | zero => simp [typesWithin] at run
    | succ fuel =>
      obtain ⟨ctx', a', nullable, below, rfl⟩ := down.schema run
      obtain ⟨s, rfl, const⟩ := ih below literal
      exact ⟨s.orNullable nullable, rfl, const⟩

theorem models_vary (id : TypeId) (v : Visibility) (site : List Constraints) :
    Gives (c.models id v site) fun s => s.isConst = false := by
  unfold models
  cases c.graph.types.size + 2 with
  | zero => exact .throw
  | succ fuel =>
    refine Gives.any.bind fun _ _ => ?_
    dsimp only
    split
    · exact .pure rfl
    · exact .bind .any fun _ _ => .bind .any fun _ _ => .pure rfl

theorem isConst_iff (run : Yields (c.convert type ctx site) g (some s) g') :
    s.isConst ↔ c.graph.IsConstant type := by
  constructor
  · exact isConstant_of_yields models_vary run
  · intro constant
    obtain ⟨_, ⟨⟩, const⟩ := yields_of_isConstant constant run
    exact const

def TypeGraph.hostParameters (graph : TypeGraph) : List (String × HostParameter) :=
  match graph.service.server with
  | none => []
  | some server => server.parameters.entries

namespace Converter

theorem hostParameter_const (name : String) (decl : HostParameter) :
    Gives (c.hostParameter name decl) fun s => ∀ other,
      (∃ p ∈ s, p.name = other ∧ p.schema.isConst) ↔
        name = other ∧ c.graph.IsConstant decl.type := by
  refine ⟨fun g s g' run other => ?_⟩
  obtain ⟨schema, g₁, converted, run⟩ := yields_bind.mp run
  cases schema with
  | none =>
    obtain ⟨rfl, -⟩ := yields_pure.mp run
    have varies : ¬ c.graph.IsConstant decl.type := fun constant => by
      obtain ⟨_, ⟨⟩, -⟩ := yields_of_isConstant constant converted
    simp [varies]
  | some schema =>
    obtain ⟨rfl, -⟩ := yields_pure.mp run
    simp [← isConst_iff converted]

theorem hostParameters_const : Gives c.hostParameters fun host => ∀ name,
    (∃ s ∈ host, s.name = name ∧ s.schema.isConst) ↔
      ∃ decl, (name, decl) ∈ c.graph.hostParameters ∧ c.graph.IsConstant decl.type := by
  unfold hostParameters TypeGraph.hostParameters
  cases c.graph.service.server with
  | none => exact .pure (by simp)
  | some server =>
    refine Gives.any.bind fun _ _ => ?_
    dsimp only
    generalize server.parameters.entries = entries
    induction entries with
    | nil => exact .pure (by simp)
    | cons e rest ih =>
      obtain ⟨first, decl⟩ := e
      refine (hostParameter_const first decl).bind fun s here => ?_
      refine ih.bind fun host others => .pure fun name => ?_
      have split : (∃ decl', (name, decl') ∈ (first, decl) :: rest ∧
          c.graph.IsConstant decl'.type) ↔ (first = name ∧ c.graph.IsConstant decl.type) ∨
          ∃ decl', (name, decl') ∈ rest ∧ c.graph.IsConstant decl'.type := by
        simp [or_and_right, exists_or, eq_comm, and_assoc]
      rw [split, ← here, ← others]
      cases s <;> simp

end Converter

/-- The arguments of a location are sorted apart: those that vary, and constants. -/
structure Arguments.Apart (a : Arguments) : Prop where
  params : ∀ s ∈ a.params, s.schema.isConst = false
  consts : ∀ s ∈ a.consts, s.schema.isConst

namespace Assembler

/-- What is emitted as a constant always is one. Among the arguments that should vary there are
constants only in the path, which are the parameters of the host whose type comes to a value. So
all arguments are sorted apart exactly if there are no such parameters. -/
theorem constants_are_apart_iff {graph : TypeGraph} {operation : Operation} {operationId : String}
    {stage : Stage} {a : Assembler} {schema : OperationSchema} {ds ds₁ ds₂ ds' : Diagnostics}
    (prepared : Yields (ofOperation graph operation operationId) ds a ds₁)
    (assembled : Yields (a.assemble stage) ds₂ schema ds') :
    ((∀ location, (schema.request.argumentsIn location).Apart) ↔
      ∀ e ∈ graph.hostParameters, ¬ graph.IsConstant e.2.type) ∧
    (∀ location, ∀ s ∈ (schema.request.argumentsIn location).consts, s.schema.isConst) ∧
    ∀ location name,
      (∃ s ∈ (schema.request.argumentsIn location).params, s.name = name ∧ s.schema.isConst) ↔
        location = .path ∧
          ∃ decl, (name, decl) ∈ graph.hostParameters ∧ graph.IsConstant decl.type := by
  obtain ⟨p⟩ := passes_of_assembled prepared assembled
  have consts (location : Location) :
      ∀ s ∈ (schema.request.argumentsIn location).consts, s.schema.isConst := by
    intro s member
    obtain ⟨own, -, sorted⟩ := p.sorted location
    exact (List.mem_filter.mp (sorted.consts.perm.mem_iff.mp member)).2
  have params (location : Location) (name : String) :
      (∃ s ∈ (schema.request.argumentsIn location).params, s.name = name ∧ s.schema.isConst) ↔
        location = .path ∧
          ∃ decl, (name, decl) ∈ graph.hostParameters ∧ graph.IsConstant decl.type := by
    obtain ⟨_, _, run⟩ := p.host_run
    have host := hostParameters_const.known _ _ _ run name
    have emitted : (∃ s ∈ p.emittedHost, s.name = name ∧ s.schema.isConst) ↔
        ∃ s ∈ p.host, s.name = name ∧ s.schema.isConst := by simp [Passes.emittedHost]
    have sent (s : NamedSchema) :
        s ∈ (schema.request.argumentsIn location).params ∧ s.schema.isConst ↔
          location = .path ∧ s ∈ p.emittedHost ∧ s.schema.isConst := by
      obtain ⟨own, -, sorted⟩ := p.sorted location
      rw [sorted.params.perm.mem_iff]
      by_cases path : location = .path <;> cases const : s.schema.isConst <;> simp [path, const]
    rw [← host, ← emitted]
    constructor
    · rintro ⟨s, member, same, const⟩
      obtain ⟨path, member, -⟩ := (sent s).mp ⟨member, const⟩
      exact ⟨path, s, member, same, const⟩
    · rintro ⟨path, s, member, same, const⟩
      exact ⟨s, ((sent s).mpr ⟨path, member, const⟩).1, same, const⟩
  refine ⟨⟨fun apart e member constant => ?_, fun varied location => ⟨?_, consts location⟩⟩,
    consts, params⟩
  · obtain ⟨s, member, -, const⟩ := (params .path e.1).mpr ⟨rfl, e.2, member, constant⟩
    simp [(apart .path).params s member] at const
  · intro s member
    by_contra const
    obtain ⟨-, decl, declared, constant⟩ :=
      (params location s.name).mp ⟨s, member, rfl, by simpa using const⟩
    exact varied _ declared constant

/-- The host has no constants here, and the one of the operation is set apart. -/
theorem part_constants_apart : ∃ a schema ds ds',
    Yields (ofOperation depot getPart "get") [] a ds ∧ Yields (a.assemble .read) ds schema ds' ∧
      (∀ location, (schema.request.argumentsIn location).Apart) ∧
      (schema.request.argumentsIn .query).consts.map (·.name) = ["api-version"] := by
  let both : OperationM OperationSchema := do (← ofOperation depot getPart "get").assemble .read
  obtain ⟨schema, ds', run⟩ := exists_yields (x := both) (g := []) (by decide +kernel)
  obtain ⟨a, ds, prepared, assembled⟩ := yields_bind.mp run
  refine ⟨a, schema, ds, ds', prepared, assembled,
    (constants_are_apart_iff prepared assembled).1.mpr ?_, ?_⟩
  · rintro e member ⟨last, value, leads, literal, -⟩
    have entries : depot.hostParameters =
        [("endpoint", { type := .named "string" }), ("nothing", { type := .named "void" })] := rfl
    obtain rfl | rfl : e = ("endpoint", { type := .named "string" }) ∨
        e = ("nothing", { type := .named "void" }) := by simpa [entries] using member
    all_goals
      cases leads with
      | here => cases literal
      | down down _ => cases down with
        | variant here _ => cases here
        | link here _ _ => cases here
  · have names : ((outcome both []).1.toOption.map fun s =>
        (s.request.argumentsIn .query).consts.map (·.name)) = some ["api-version"] := by
      decide +kernel
    rw [show outcome both [] = _ from run] at names
    exact Option.some.inj names

/-- A host whose one parameter has a single value. -/
def regional : TypeGraph where
  version := "1"
  service := { server := some {
    url := "https://{region}.example.com"
    parameters := .ofEntries [("region", { type := .literal (.string "global") })] } }

def listWidgets : Operation where
  name := "list"
  verb := .get
  path := "/widgets"

/-- The region can only be global, and yet it is among the arguments that vary. -/
theorem region_not_apart : ∃ a schema ds ds',
    Yields (ofOperation regional listWidgets "list") [] a ds ∧
      Yields (a.assemble .read) ds schema ds' ∧
      (schema.request.argumentsIn .path).params.any (·.schema.isConst) :=
  ⟨_, _, _, _, rfl, rfl, by decide +kernel⟩

end Assembler
end WireSchema
