import WireSchema.Proofs.Harvesting
import WireSchema.Proofs.Places
import WireSchema.Proofs.Silence

/-! Unions of literals beside enumerations of the same values. The two are converted apart: a kind
is found for the values and limited to them by both, but only an enumeration takes in the
constraints of the place of use, and only an enumeration reports values that no kind admits all
of. -/
namespace WireSchema

open ConvertM Converter

/-- Whether constraints say anything that a schema of a text or a number takes in. -/
def Constraints.SpeaksOf (layer : Constraints) : SchemaKind → Prop
  | .string .. => layer.pattern.isSome ∨ layer.maxLength.isSome ∨ layer.minLength.isSome
  | .integer .. | .float .. =>
    layer.maxValue.isSome ∨ layer.maxValueExclusive.isSome ∨ layer.minValue.isSome ∨
      layer.minValueExclusive.isSome ∨ layer.multipleOf.isSome
  | _ => False

/-- A kind of the values of an enumeration, where nothing is known of their format. -/
inductive SchemaKind.OfValues : SchemaKind → Prop
  | string {values : Option (List Json)} : OfValues (.string .string none values)
  | integer {values : Option (List Json)} : OfValues (.integer .integer none values)
  | float : OfValues (.float .float none)
  | boolean : OfValues .boolean

theorem nonEmptyFormat_eq_none_iff {φ : Type} [DecidableEq φ] {empty format : φ} :
    nonEmptyFormat empty format = none ↔ format = empty := by
  unfold nonEmptyFormat
  split <;> simp_all

namespace SchemaKind

variable {kind kind' : SchemaKind} {values : List Json} {site : List Constraints}

theorem ofValues_of_ofValues? (found : ofValues? values = some kind) : kind.OfValues := by
  unfold ofValues? at found
  split at found
  · cases found
    exact .string
  split at found
  · cases found
    exact .integer
  split at found
  · cases found
    exact .float
  split at found
  · cases found
    exact .boolean
  · cases found

/-- Constraints change the kind exactly if one of the layers speaks of it. -/
theorem OfValues.harvest_eq_iff (ofValues : kind.OfValues) :
    kind.harvest site none = kind ↔ ∀ layer ∈ site, ¬ layer.SpeaksOf kind := by
  cases ofValues with
  | string =>
    simp [harvest, StringFormat.foldl_merge, nonEmptyFormat_eq_none_iff, Constraints.SpeaksOf,
      imp_and, forall_and]
  | integer =>
    simp [harvest, IntegerFormat.foldl_merge, nonEmptyFormat_eq_none_iff, IntegerFormat.upper,
      IntegerFormat.lower, Constraints.SpeaksOf, imp_and, forall_and, and_assoc]
  | float =>
    have bounds : site.foldl FloatFormat.merge {} = {} ↔
        site.findSome? FloatFormat.upper = none ∧ site.findSome? FloatFormat.lower = none ∧
          site.findSome? (·.multipleOf) = none := by
      rw [FloatFormat.foldl_merge]
      cases site.findSome? FloatFormat.upper <;> cases site.findSome? FloatFormat.lower <;> simp
    simp [harvest, bounds, nonEmptyFormat_eq_none_iff, FloatFormat.upper, FloatFormat.lower,
      Constraints.SpeaksOf, imp_and, forall_and, and_assoc]
  | boolean => simp [harvest, Constraints.SpeaksOf]

end SchemaKind

section Conversions

variable {c : Converter} {graph : TypeGraph} {values : List Json} {kind limited : SchemaKind}
  {site : List Constraints} {models : ModelStep} {types : TypeStep} {ctx : Context}
  {reports : Diagnostics}

/-- What comes of limiting the kind of some values to them. -/
structure Limits (c : Converter) (values : List Json) (owner : String) (kind limited : SchemaKind)
    (reports : Diagnostics) : Prop where
  found : SchemaKind.ofValues? values = some kind
  always : Always (c.limitTo kind values owner) limited reports
  ofValues : limited.OfValues
  spokenOf : ∀ layer : Constraints, layer.SpeaksOf limited ↔ layer.SpeaksOf kind

/-- Limiting a kind to values comes to the same from every state. -/
theorem exists_limits (c : Converter) (owner : String)
    (found : SchemaKind.ofValues? values = some kind) :
    ∃ limited reports, Limits c values owner kind limited reports := by
  cases SchemaKind.ofValues_of_ofValues? found with
  | string => exact ⟨_, _, found, .pure _, .string, fun _ => Iff.rfl⟩
  | integer => exact ⟨_, _, found, .pure _, .integer, fun _ => Iff.rfl⟩
  | float => exact ⟨_, _, found, .bind (.report _ _ _) (.pure _), .float, fun _ => Iff.rfl⟩
  | boolean => exact ⟨_, _, found, .bind (.report _ _ _) (.pure _), .boolean, fun _ => Iff.rfl⟩

/-- It depends on whom reports are about, but not on the graph. -/
theorem Limits.of_target {c' : Converter} {owner : String} (target : c'.target = c.target)
    (limits : Limits c values owner kind limited reports) :
    Limits c' values owner kind limited reports where
  found := limits.found
  always := by
    have same : c'.limitTo = c.limitTo := by
      funext kind values owner
      simp only [limitTo, report, target]
    exact same ▸ limits.always
  ofValues := limits.ofValues
  spokenOf := limits.spokenOf

theorem always_enumeration {decl : EnumType}
    (limits : Limits c decl.values decl.name kind limited reports) :
    Always (c.enumeration decl site) (some (.ofKind (limited.harvest site none))) reports := by
  simpa only [enumeration, limits.found] using
    limits.always.map fun kind => some (Schema.ofKind (kind.harvest site none))

theorem always_enumeration_of_unlike {decl : EnumType} (unlike : Unlike decl.values) :
    Always (c.enumeration decl site) none
      [⟨.unsupportedType, "enum `" ++ decl.name ++ "` mixes value kinds", c.target⟩] := by
  unfold enumeration
  rw [ofValues?_eq_none_iff.mpr unlike]
  exact .map (.report c _ _) fun _ => none

def literals (values : List Json) : List (TypeRef × Resolved) :=
  values.map fun value => (.literal value, .literal value)

theorem mapM_resolve_literals : (values.map TypeRef.literal).mapM (fun ref => do
    return (ref, ← graph.resolve ref)) = (.ok (literals values) : Except ResolveError _) := by
  induction values with
  | nil => rfl
  | cons value rest ih =>
    rw [List.map_cons, List.mapM_cons, ih]
    rfl

theorem gatherVariants_literals (seen : List Json) :
    gatherVariants graph site seen none (literals values) = .ok (seen ++ values, none) := by
  induction values generalizing seen with
  | nil => simp [literals, gatherVariants]
  | cons value rest ih => simpa [literals, gatherVariants] using ih (seen ++ [value])

/-- A union of literals is one of values, without a scalar. -/
theorem always_union {decl : UnionType} {a : Option Schema} (several : 2 ≤ values.length)
    (valued : .null ∉ values) (listed : decl.variants = values.map .literal)
    (always : Always (c.enumUnion decl (literals values) site) a reports) :
    Always (c.union types decl ctx site) a reports := by
  have unnull : ∀ v ∈ literals values, isNullVariant v.2 = false := by
    intro v member
    obtain ⟨value, listed, rfl⟩ := List.mem_map.mp member
    cases value with
    | null => exact absurd listed valued
    | _ => rfl
  have kept : (literals values).filter (fun v => !isNullVariant v.2) = literals values :=
    List.filter_eq_self.mpr fun v member => by simp [unnull v member]
  have never : (literals values).any (fun v => isNullVariant v.2) = false := by
    simpa using unnull
  have mapped : a.map (fun s => { s with nullable := s.nullable || false }) = a := by
    rcases a with _ | ⟨_, _, _, _, _⟩ <;> simp
  have run := always.map fun a => a.map fun s : Schema => { s with nullable := s.nullable || false }
  rw [mapped] at run
  unfold union
  rw [listed, mapM_resolve_literals]
  simp only [ofResolve, pure_bind, never, kept]
  rwa [oneOf_several (by simpa [literals] using several)]

/-- A union of literals leaves the constraints of the place of use aside. -/
theorem always_enumUnion {decl : UnionType} (several : 2 ≤ values.length)
    (limits : Limits c values decl.name kind limited reports) :
    Always (c.enumUnion decl (literals values) site) (some (.ofKind limited)) reports := by
  have admitted : values.all kind.admits := by
    simpa using (SchemaKind.spec_ofValues? limits.found).1
  have valued : values.isEmpty = false := by
    cases values with
    | nil => cases several
    | cons => rfl
  simpa [enumUnion, gatherVariants_literals, limits.found, Schema.ofKind, admitted, valued] using
    limits.always.map fun kind => some (Schema.ofKind kind)

end Conversions

namespace Converter

variable {c c' : Converter} {values : List Json} {type type' : TypeRef} {id id' : TypeId}
  {decl : UnionType} {decl' : EnumType}

theorem always_convert {declaration : Declaration} {ctx : Context} {site : List Constraints}
    {a : Option Schema} {reports : Diagnostics}
    (here : c.graph.resolve type = .ok (.declared id declaration))
    (always : ∀ types, Always (c.declared c.models types id declaration ctx site) a reports) :
    Always (c.convert type ctx site) a reports := by
  intro g
  exact yields_bind.mpr ⟨_, g, yields_ofResolve.mpr ⟨here, rfl⟩, always _ g⟩

/-- A union of at least two literals and an enumeration of the same name and the same values come to
the same kind, limited to the same values, but only the enumeration takes in the constraints of the
place of use. Where no kind admits all the values neither gives anything and only the enumeration
says so. Otherwise the reports are the same. So the two agree exactly if the values have a kind and
none of the constraints speaks of it. -/
theorem union_is_enumeration_iff (ctx : Context) (site : List Constraints)
    (target : c'.target = c.target) (several : 2 ≤ values.length) (valued : .null ∉ values)
    (union : c.graph.resolve type = .ok (.declared id (.union decl)))
    (listed : decl.variants = values.map .literal)
    (enumeration : c'.graph.resolve type' = .ok (.declared id' (.enum decl')))
    (members : decl'.values = values) (named : decl'.name = decl.name) :
    ∃ a a' reports reports', Always (c.convert type ctx site) a reports ∧
      Always (c'.convert type' ctx site) a' reports' ∧
      a' = a.map (fun s => { s with kind := s.kind.harvest site none }) ∧
      (Unlike values → a = none ∧ reports = [] ∧ reports'.length = 1) ∧
      (¬ Unlike values → a.isSome ∧ reports' = reports) ∧
      (a' = a ∧ (reports' ≠ [] ↔ reports ≠ []) ↔
        ∃ kind, SchemaKind.ofValues? values = some kind ∧
          ∀ layer ∈ site, ¬ layer.SpeaksOf kind) := by
  subst members
  cases found : SchemaKind.ofValues? decl'.values with
  | none =>
    have unlike := ofValues?_eq_none_iff.mp found
    refine ⟨none, none, [], _, always_convert union fun types => ?_,
      always_convert enumeration fun types => always_enumeration_of_unlike unlike, rfl,
      fun _ => ⟨rfl, rfl, rfl⟩, fun like => absurd unlike like, by simp⟩
    refine always_union several valued listed ?_
    have passed : c.enumUnion decl (literals decl'.values) site = pure none :=
      enumUnion_of_unlike unlike (gatherVariants_literals [])
    rw [passed]
    exact .pure none
  | some kind =>
    have like : ¬ Unlike decl'.values := fun unlike => by
      simp [ofValues?_eq_none_iff.mpr unlike] at found
    obtain ⟨limited, reports, limits⟩ := exists_limits c decl.name found
    have limits' : Limits c' decl'.values decl'.name kind limited reports := by
      rw [named]
      exact limits.of_target target
    refine ⟨some (.ofKind limited), some (.ofKind (limited.harvest site none)), reports, reports,
      always_convert union fun types => always_union several valued listed
        (always_enumUnion several limits),
      always_convert enumeration fun types => always_enumeration limits', rfl,
      fun unlike => absurd unlike like, fun _ => ⟨rfl, rfl⟩, ?_⟩
    simp [Schema.ofKind, limits.ofValues.harvest_eq_iff, limits.spokenOf]

def red : Json := .string "red"
def blue : Json := .string "blue"
def colorUnion : UnionType := { name := "Color", variants := [.literal red, .literal blue] }
def colorEnum : EnumType := { name := "Color", members := [{ name := "red" }, { name := "blue" }] }

/-- Two colours, as a union of texts and as an enumeration. -/
def palette : Converter where
  target := "Color"
  graph := {
    version := "1"
    types := .ofEntries [("ColorUnion", .union colorUnion), ("ColorEnum", .enum colorEnum)] }

/-- Bounds of numbers say nothing of texts. -/
theorem colors_agree : ∃ a a' reports reports',
    Always (palette.convert (.named "ColorUnion") { visibility := .read }
      [{ multipleOf := some (.ofNat 2) }]) a reports ∧
    Always (palette.convert (.named "ColorEnum") { visibility := .read }
      [{ multipleOf := some (.ofNat 2) }]) a' reports' ∧
    a' = a ∧ (reports' ≠ [] ↔ reports ≠ []) := by
  obtain ⟨a, a', reports, reports', union, enumeration, -, -, -, agree⟩ :=
    @union_is_enumeration_iff palette palette [red, blue] (.named "ColorUnion") (.named "ColorEnum")
      ⟨0⟩ ⟨1⟩ colorUnion colorEnum { visibility := .read } [{ multipleOf := some (.ofNat 2) }] rfl
      (by decide) (by simp [red, blue]) rfl rfl rfl rfl rfl
  exact ⟨a, a', reports, reports', union, enumeration,
    agree.mpr ⟨.ofStringType .string, rfl, by simp [Constraints.SpeaksOf, SchemaKind.ofStringType]⟩⟩

def short : Constraints := { maxLength := some 4 }

theorem short_colors_differ : ∃ a a',
    Yields (palette.convert (.named "ColorUnion") { visibility := .read } [short]) {} a {} ∧
      Yields (palette.convert (.named "ColorEnum") { visibility := .read } [short]) {} a' {} ∧
      colorUnion.variants = colorEnum.values.map .literal ∧ a' ≠ a := by
  refine ⟨_, _, rfl, rfl, rfl, fun same => ?_⟩
  cases same

end Converter
end WireSchema
