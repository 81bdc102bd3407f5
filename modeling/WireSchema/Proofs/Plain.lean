import WireSchema.Proofs.Mention
import WireSchema.Proofs.Run

/-! Types that hold no classes: literals, scalars, enumerations and the unions of these. Their
conversion does nothing but report. -/
namespace WireSchema

open ConvertM

structure Plain (x : ConvertM (Option Schema)) : Prop where
  reports : Reports x
  flat : ∀ g s g', Yields x g (some s) g' → s.kind.Flat

namespace SchemaKind

theorem Scalar.of_ofValues? {kind : SchemaKind} {values : List Json}
    (h : ofValues? values = some kind) : kind.Scalar := by
  unfold ofValues? at h
  split at h
  · cases h; exact .string ..
  split at h
  · cases h; exact .integer ..
  split at h
  · cases h; exact .float ..
  split at h
  · cases h; exact .boolean
  · cases h

theorem Scalar.withValues {kind : SchemaKind} (scalar : kind.Scalar) (values : List Json) :
    ((kind.withValues? values).getD kind).Scalar := by
  cases scalar <;> constructor

end SchemaKind

namespace ScalarChain

theorem scalar_encodedKind? {builtin : BuiltinScalar} {encoding : String} {kind : SchemaKind}
    (h : encodedKind? builtin encoding = some kind) : kind.Scalar := by
  unfold encodedKind? at h
  split at h
  · split at h <;> cases h <;> constructor
  · cases h

theorem scalar_kind (chain : ScalarChain) (site : List Constraints) :
    (chain.kind site).Scalar := by
  simp only [kind]
  split
  · exact .string ..
  · cases encoded : ((site ++ chain.layers).findSome? (·.encode)).bind
        (encodedKind? chain.builtin) with
    | none => cases chain.builtin <;> constructor
    | some kind =>
      obtain ⟨_, _, found⟩ := Option.bind_eq_some_iff.mp encoded
      exact scalar_encodedKind? found

theorem flat_schema (chain : ScalarChain) (site : List Constraints) :
    (chain.schema site).kind.Flat := .scalar ((scalar_kind chain site).harvest _ _)

end ScalarChain

namespace Converter

variable (c : Converter) {g g' : Gathered}

theorem plain_none {x : ConvertM (Option Schema)} (reports : Reports x)
    (nothing : ∀ g a g', Yields x g a g' → a = none) : Plain x where
  reports := reports
  flat g _ g' run := nomatch nothing g _ g' run

theorem plain_literal (value : Json) : Plain (c.literal value) := by
  unfold literal
  split
  · refine plain_none (.bind (.report ..) fun _ => .pure _) fun g a g' run => ?_
    simp only [yields_bind, yields_pure] at run
    obtain ⟨_, _, _, rfl, _⟩ := run
    rfl
  · rename_i kind shared
    refine ⟨.pure _, fun g s g' run => ?_⟩
    simp only [yields_pure, Option.some.injEq] at run
    obtain ⟨rfl, _⟩ := run
    exact .scalar ((SchemaKind.Scalar.of_ofValues? shared).withValues _)

theorem plain_intrinsic (type : Intrinsic) (ref : TypeRef) : Plain (c.intrinsic type ref) := by
  cases type with
  | null =>
    refine plain_none (.bind (.report ..) fun _ => .pure _) fun g a g' run => ?_
    simp only [intrinsic, yields_bind, yields_pure] at run
    obtain ⟨_, _, _, rfl, _⟩ := run
    rfl
  | unknown =>
    refine ⟨.pure _, fun g s g' run => ?_⟩
    simp only [intrinsic, yields_pure, Option.some.injEq] at run
    obtain ⟨rfl, _⟩ := run
    exact .anything
  | _ => exact plain_none (.pure _) fun g a g' run => ((yields_pure.mp run).1).symm

theorem reports_limitTo (kind : SchemaKind) (values : List Json) (owner : String) :
    Reports (c.limitTo kind values owner) := by
  unfold limitTo
  split
  · exact .pure _
  · exact .bind (.report ..) fun _ => .pure _

theorem scalar_limitTo {kind limited : SchemaKind} {values : List Json} {owner : String}
    (scalar : kind.Scalar) (run : Yields (c.limitTo kind values owner) g limited g') :
    limited.Scalar := by
  unfold limitTo at run
  split at run
  · rename_i known
    simp only [yields_pure] at run
    obtain ⟨rfl, _⟩ := run
    exact .of_withValues? known
  · simp only [yields_bind, yields_pure] at run
    obtain ⟨_, _, _, rfl, _⟩ := run
    exact scalar

theorem plain_enumeration (decl : EnumType) (site : List Constraints) :
    Plain (c.enumeration decl site) := by
  unfold enumeration
  split
  · refine plain_none (.bind (.report ..) fun _ => .pure _) fun g a g' run => ?_
    simp only [yields_bind, yields_pure] at run
    obtain ⟨_, _, _, rfl, _⟩ := run
    rfl
  · rename_i kind shared
    refine ⟨.bind (c.reports_limitTo ..) fun _ => .pure _, fun g s g' run => ?_⟩
    simp only [yields_bind, yields_pure, Option.some.injEq] at run
    obtain ⟨limited, _, limit, rfl, _⟩ := run
    exact .scalar ((c.scalar_limitTo (.of_ofValues? shared) limit).harvest _ _)

theorem plain_unsupportedUnion (decl : UnionType) (ref : TypeRef) :
    Plain (c.unsupportedUnion decl ref) := by
  refine plain_none (.bind (.report ..) fun _ => .pure _) fun g a g' run => ?_
  simp only [unsupportedUnion, yields_bind, yields_pure] at run
  obtain ⟨_, _, _, rfl, _⟩ := run
  rfl

/-- The scalar that is found among the variants of a union is that of a chain. -/
theorem chain_of_gatherVariants {graph : TypeGraph} {site : List Constraints}
    {variants : List (TypeRef × Resolved)} {values values' : List Json}
    {scalar scalar' : Option Schema}
    (known : ∀ s, scalar = some s → ∃ chain : ScalarChain, s = chain.schema site)
    (gathered : gatherVariants graph site values scalar variants = .ok (values', scalar')) :
    ∀ s, scalar' = some s → ∃ chain : ScalarChain, s = chain.schema site := by
  induction variants generalizing values scalar with
  | nil =>
    simp only [gatherVariants, Except.ok.injEq, Prod.mk.injEq] at gathered
    exact gathered.2 ▸ known
  | cons variant rest ih =>
    have chained (chain : ScalarChain) :
        ∀ s, some (chain.schema site) = some s → ∃ chain : ScalarChain, s = chain.schema site := by
      rintro _ ⟨⟩
      exact ⟨chain, rfl⟩
    obtain ⟨ref, resolved⟩ := variant
    unfold gatherVariants at gathered
    split at gathered
    · exact ih known gathered
    · exact ih known gathered
    · exact ih (chained _) gathered
    · split at gathered
      · exact ih (chained _) gathered
      · cases gathered
    · cases gathered

theorem plain_enumUnion (decl : UnionType) (variants : List (TypeRef × Resolved))
    (site : List Constraints) : Plain (c.enumUnion decl variants site) := by
  unfold enumUnion
  split
  · exact c.plain_unsupportedUnion ..
  rename_i values scalar gathered
  split
  · exact plain_none (.pure _) fun g a g' run => ((yields_pure.mp run).1).symm
  rename_i schema chosen
  have kind : schema.kind.Scalar := by
    cases scalar with
    | some s =>
      cases chosen
      obtain ⟨chain, rfl⟩ := chain_of_gatherVariants (by simp) gathered _ rfl
      exact (ScalarChain.scalar_kind chain site).harvest _ _
    | none =>
      obtain ⟨kind, shared, rfl⟩ := Option.map_eq_some_iff.mp chosen
      exact .of_ofValues? shared
  split
  · split
    · refine ⟨.pure _, fun g s g' run => ?_⟩
      simp only [yields_pure, Option.some.injEq] at run
      obtain ⟨rfl, _⟩ := run
      exact .scalar kind
    · refine ⟨.bind (c.reports_limitTo ..) fun _ => .pure _, fun g s g' run => ?_⟩
      simp only [yields_bind, yields_pure, Option.some.injEq] at run
      obtain ⟨limited, _, limit, rfl, _⟩ := run
      exact .scalar (c.scalar_limitTo kind limit)
  · split
    · exact c.plain_unsupportedUnion ..
    · exact plain_none (.pure _) fun g a g' run => ((yields_pure.mp run).1).symm

end Converter
end WireSchema
