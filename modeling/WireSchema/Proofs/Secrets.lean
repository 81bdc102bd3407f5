import WireSchema.Proofs.References
import WireSchema.Proofs.Run
import WireSchema.Request

/-! What a schema being secret says about the constraints that a conversion has passed. Constraints
are handed down from a union to its variant and from a property reference to the property; whether
the schema is secret is found out without going that way. -/
namespace WireSchema

open ConvertM Converter

/-- The conversion of a type is that of another one, whose place of use has some more layers of
constraints. -/
inductive HandsDown (graph : TypeGraph) : TypeRef → TypeRef → List Constraints → Prop
  | variant {type ref : TypeRef} {id : TypeId} {decl : UnionType} :
      graph.resolve type = .ok (.declared id (.union decl)) →
      decl.variants.filter (!graph.isNull ·) = [ref] → HandsDown graph type ref []
  | link {type : TypeRef} {id owner : TypeId} {link : PropertyLink} {model : ModelType}
      {p : Property} :
      graph.resolve type = .ok (.declared id (.property link)) →
      graph.modelNamed link.model = .ok (owner, model) →
      model.properties.get? link.property = some p → HandsDown graph type p.type [p.constraints]

/-- The constraints that the conversion of a type meets: those of the scalars on its chain, and of
the properties that are referred to. -/
inductive Meets (graph : TypeGraph) : TypeRef → Constraints → Prop
  | scalar {type : TypeRef} {id : TypeId} {decl : ScalarType} {chain : ScalarChain}
      {layer : Constraints} :
      graph.resolve type = .ok (.declared id (.scalar decl)) →
      ScalarChain.ofDeclared graph id = .ok chain → layer ∈ chain.layers → Meets graph type layer
  | own {type ref : TypeRef} {layers : List Constraints} {layer : Constraints} :
      HandsDown graph type ref layers → layer ∈ layers → Meets graph type layer
  | further {type ref : TypeRef} {layers : List Constraints} {layer : Constraints} :
      HandsDown graph type ref layers → Meets graph ref layer → Meets graph type layer

def Schema.orNullable (nullable : Bool) (s : Schema) : Schema :=
  { s with nullable := s.nullable || nullable }

@[simp] theorem Schema.orNullable_false : Schema.orNullable false = id := by
  funext s
  cases s
  simp [orNullable]

variable {c : Converter} {models : ModelStep} {fuel : Nat} {type ref : TypeRef} {ctx : Context}
  {site layers : List Constraints} {g g' : Gathered} {s : Schema}

theorem schema_of_union {types : TypeStep} {decl : UnionType} {a : Option Schema}
    (run : Yields (c.union types decl ctx site) g a g') :
    ∃ variants schema nullable, variants.map Prod.fst = decl.variants.filter (!c.graph.isNull ·) ∧
      (∀ v ∈ variants, c.graph.resolve v.1 = .ok v.2) ∧
      Yields (c.oneOf types decl variants ctx site) g schema g' ∧
      a = schema.map (·.orNullable nullable) := by
  obtain ⟨variants, g₁, each, run⟩ := yields_bind.mp run
  obtain ⟨resolved, rfl⟩ := yields_ofResolve.mp each
  obtain ⟨schema, g₂, one, run⟩ := yields_bind.mp run
  obtain ⟨rfl, rfl⟩ := yields_pure.mp run
  exact ⟨_, schema, _, TypeGraph.nonNull_of_mapM resolved, fun v member =>
    (TypeGraph.resolved_of_mapM resolved).2 v (List.mem_filter.mp member).1, one, rfl⟩

theorem oneOf_of_union {types : TypeStep} {decl : UnionType} {a : Option Schema}
    (run : Yields (c.union types decl ctx site) g a g') :
    ∃ variants schema, variants.map Prod.fst = decl.variants.filter (!c.graph.isNull ·) ∧
      (∀ v ∈ variants, c.graph.resolve v.1 = .ok v.2) ∧
      Yields (c.oneOf types decl variants ctx site) g schema g' ∧
      a.map (·.kind) = schema.map (·.kind) := by
  obtain ⟨variants, schema, nullable, chosen, known, one, rfl⟩ := schema_of_union run
  refine ⟨variants, schema, chosen, known, one, ?_⟩
  rw [Option.map_map]
  rfl

/-- What is handed down gives the schema, but for being nullable, and none if it gives none. -/
theorem HandsDown.schema (down : HandsDown c.graph type ref layers) {a : Option Schema}
    (run : Yields (c.typesWithin models (fuel + 1) type ctx site) g a g') :
    ∃ ctx' a' nullable, Yields (c.typesWithin models fuel ref ctx' (site ++ layers)) g a' g' ∧
      a = a'.map (·.orNullable nullable) := by
  obtain ⟨resolved, g₁, found, run⟩ := yields_bind.mp run
  obtain ⟨here, rfl⟩ := yields_ofResolve.mp found
  cases down with
  | variant there alone =>
    obtain rfl := Except.ok.inj (here.symm.trans there)
    obtain ⟨variants, schema, nullable, chosen, -, one, same⟩ := schema_of_union run
    rw [alone] at chosen
    obtain ⟨⟨_, r⟩, rfl, rfl⟩ := List.map_eq_singleton_iff.mp chosen
    exact ⟨ctx, schema, nullable, by simpa [oneOf] using one, same⟩
  | link there owner known =>
    obtain rfl := Except.ok.inj (here.symm.trans there)
    obtain ⟨found, g₂, model, run⟩ := yields_bind.mp run
    obtain ⟨named, rfl⟩ := yields_ofResolve.mp model
    obtain rfl := Except.ok.inj (owner.symm.trans named)
    simp only [known] at run
    exact ⟨_, a, false, run, by simp⟩

theorem HandsDown.kind (down : HandsDown c.graph type ref layers) {a : Option Schema}
    (run : Yields (c.typesWithin models (fuel + 1) type ctx site) g a g') :
    ∃ ctx' a', Yields (c.typesWithin models fuel ref ctx' (site ++ layers)) g a' g' ∧
      a.map (·.kind) = a'.map (·.kind) := by
  obtain ⟨ctx', a', nullable, below, rfl⟩ := down.schema run
  refine ⟨ctx', a', below, ?_⟩
  rw [Option.map_map]
  rfl

/-- Whether a type is secret is said by its scalars, unless they are reached through another
type. -/
theorem isSecret_iff (graph : TypeGraph) (type : TypeRef) (site : Constraints) :
    graph.isSecret type site ↔ site.secret ∨
      (∃ layer, Meets graph type layer ∧ layer.secret) ∧
        ¬ ∃ ref layers, HandsDown graph type ref layers := by
  unfold TypeGraph.isSecret
  rw [Bool.or_eq_true]
  refine or_congr_right ?_
  constructor
  · intro marked
    split at marked
    · rename_i id decl here
      split at marked
      · rename_i chain followed
        obtain ⟨layer, member, secret⟩ := List.any_eq_true.mp marked
        refine ⟨⟨layer, .scalar here followed (by simpa using member), secret⟩, ?_⟩
        rintro ⟨ref, layers, down⟩
        cases down <;> simp_all
      · cases marked
    · cases marked
  · rintro ⟨⟨layer, meets, secret⟩, direct⟩
    cases meets with
    | scalar here followed member =>
      simp only [here, followed]
      exact List.any_eq_true.mpr ⟨layer, by simpa using member, secret⟩
    | own down _ => exact absurd ⟨_, _, down⟩ direct
    | further down _ => exact absurd ⟨_, _, down⟩ direct

/-- The place of use marks a schema as secret, or a scalar does that is its type. A scalar that is
reached through a union or a property reference does not, nor does the property referred to. -/
def MarkedFor (graph : TypeGraph) (type : TypeRef) (site : Constraints) : Prop :=
  site.secret ∨ (∃ layer, Meets graph type layer ∧ layer.secret) ∧
    ¬ ∃ ref layers, HandsDown graph type ref layers

namespace Converter

/-- The schemas of properties and parameters are secret if they are marked so directly. Those of
host parameters are never secret. -/
theorem secret_iff_marked (c : Converter) :
    (∀ p ctx g s g', Yields (c.property p ctx) g (some s) g' →
      (s.secret ↔ MarkedFor c.graph p.decl.type p.decl.constraints)) ∧
    (∀ p g s g', Yields (c.parameter p) g (some s) g' →
      (s.secret ↔ MarkedFor c.graph p.type p.constraints)) ∧
    ∀ name decl g s g', Yields (c.hostParameter name decl) g (some s) g' → s.secret = false := by
  refine ⟨fun p ctx g s g' run => ?_, fun p g s g' run => ?_, fun name decl g s g' run => ?_⟩
  · obtain ⟨schema, g₁, converted, run⟩ := yields_bind.mp run
    cases schema with
    | none => simp at run
    | some schema =>
      obtain ⟨same, -⟩ := yields_pure.mp run
      rw [← Option.some.inj same]
      exact isSecret_iff c.graph p.decl.type p.decl.constraints
  · obtain ⟨resolved, g₁, -, run⟩ := yields_bind.mp run
    split at run
    · simp at run
    obtain ⟨schema, g₂, converted, run⟩ := yields_bind.mp run
    cases schema with
    | none =>
      simp only at run
      split at run <;> simp at run
    | some schema =>
      obtain ⟨same, -⟩ := yields_pure.mp run
      rw [← Option.some.inj same]
      exact isSecret_iff c.graph p.type p.constraints
  · obtain ⟨schema, g₁, converted, run⟩ := yields_bind.mp run
    cases schema with
    | none => simp at run
    | some schema =>
      obtain ⟨same, -⟩ := yields_pure.mp run
      rw [← Option.some.inj same]

/-- An account with a password, and maybe another one to recover it. -/
def accounts : Converter where
  target := "Account"
  graph := {
    version := "1"
    types := .ofEntries [
      ("Password", .scalar { base := some "string", constraints := { secret := true } }),
      ("Maybe", .union { variants := [.named "Password", .named "null"] })] }

def password : EffectiveProperty where
  name := "password"
  decl := { type := .named "Password" }
  owner := ⟨0⟩
  required := true
  readOnly := false

def recovery : EffectiveProperty where
  name := "recovery"
  decl := { type := .named "Maybe" }
  owner := ⟨0⟩
  required := false
  readOnly := false

theorem password_secret : ∃ s, Yields (accounts.property password { visibility := .read }) ⟨{}, []⟩
    (some s) ⟨{}, []⟩ ∧ s.secret ∧ MarkedFor accounts.graph (.named "Password") {} := by
  obtain ⟨s, run, secret⟩ : ∃ s, Yields (accounts.property password { visibility := .read })
      ⟨{}, []⟩ (some s) ⟨{}, []⟩ ∧ s.secret := ⟨_, rfl, rfl⟩
  exact ⟨s, run, secret, ((secret_iff_marked accounts).1 _ _ _ _ _ run).mp secret⟩

/-- The password that recovers is not secret, although the scalar is that its conversion meets. -/
theorem recovery_not_secret : ∃ s layer,
    Yields (accounts.property recovery { visibility := .read }) ⟨{}, []⟩ (some s) ⟨{}, []⟩ ∧
    Meets accounts.graph recovery.decl.type layer ∧ layer.secret ∧ s.secret = false := by
  have down : HandsDown accounts.graph (.named "Maybe") (.named "Password") [] :=
    .variant rfl rfl
  refine ⟨_, { secret := true }, rfl, .further down (.scalar rfl rfl ?_), rfl, rfl⟩
  exact List.mem_cons_self

end Converter
end WireSchema
