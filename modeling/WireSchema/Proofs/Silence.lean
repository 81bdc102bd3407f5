import WireSchema.Proofs.Secrets

/-! When a conversion gives nothing and says nothing about it. That is right for types without
values. It also happens to a union of values that no kind of schema admits all of, since a kind is
looked for there without a report. -/
namespace WireSchema

open ConvertM Converter

/-- The conversion of a type comes to that of another one. -/
inductive LeadsTo (graph : TypeGraph) : TypeRef → TypeRef → Prop
  | here {type : TypeRef} : LeadsTo graph type type
  | down {type ref last : TypeRef} {layers : List Constraints} :
      HandsDown graph type ref layers → LeadsTo graph ref last → LeadsTo graph type last

/-- Values of which no kind of schema admits all. -/
def Unlike (values : List Json) : Prop := ∀ kind : SchemaKind, ¬ values.all kind.admits

def Resolved.listed? : Resolved → Option (List Json)
  | .literal value => some [value]
  | .declared _ (.enum decl) => some decl.values
  | _ => none

namespace TypeGraph

def IsEmpty (graph : TypeGraph) (type : TypeRef) : Prop :=
  graph.resolve type = .ok (.intrinsic .never) ∨ graph.resolve type = .ok (.intrinsic .void)

def listed? (graph : TypeGraph) (type : TypeRef) : Option (List Json) :=
  match graph.resolve type with
  | .ok resolved => resolved.listed?
  | .error _ => none

def listed (graph : TypeGraph) (types : List TypeRef) : List Json :=
  types.flatMap fun type => (graph.listed? type).getD []

/-- A union that lists values in at least two variants, where no kind of schema admits all. -/
structure IsMixture (graph : TypeGraph) (type : TypeRef) (id : TypeId) (decl : UnionType) :
    Prop where
  resolved : graph.resolve type = .ok (.declared id (.union decl))
  several : 2 ≤ (decl.variants.filter (!graph.isNull ·)).length
  lists : ∀ ref ∈ decl.variants.filter (!graph.isNull ·), (graph.listed? ref).isSome
  unlike : Unlike (graph.listed (decl.variants.filter (!graph.isNull ·)))

/-- Types that give nothing without a word. -/
def IsSilent (graph : TypeGraph) (type : TypeRef) : Prop :=
  graph.IsEmpty type ∨ ∃ id decl, graph.IsMixture type id decl

end TypeGraph

/-- A kind of schema is found for values exactly if one admits them all. -/
theorem ofValues?_eq_none_iff {values : List Json} :
    SchemaKind.ofValues? values = none ↔ Unlike values := by
  have numbers (all : values.all (·.isInteger)) : values.all (·.isNumber) := by
    rw [List.all_eq_true] at all ⊢
    intro value member
    have := all value member
    cases value <;> simp_all [Json.isInteger, Json.isNumber]
  unfold SchemaKind.ofValues?
  constructor
  · intro unfound kind all
    split at unfound
    · cases unfound
    split at unfound
    · cases unfound
    split at unfound
    · cases unfound
    split at unfound
    · cases unfound
    cases kind with
    | string => exact absurd all ‹_›
    | integer => exact absurd all ‹_›
    | float => exact absurd all ‹_›
    | boolean => exact absurd all ‹_›
    | object => cases values <;> simp_all [SchemaKind.admits]
    | array => cases values <;> simp_all [SchemaKind.admits]
    | reference => cases values <;> simp_all [SchemaKind.admits]
  · intro unlike
    exact (if_neg (unlike (.ofStringType .string))).trans <|
      (if_neg (unlike (.ofIntegerType .integer))).trans <|
      (if_neg (unlike (.ofFloatType .float))).trans <| if_neg (unlike .boolean)

section Variants

variable {graph : TypeGraph} {site : List Constraints} {values all : List Json}
  {variants : List (TypeRef × Resolved)}

/-- A scalar that was met stays. -/
theorem gatherVariants_some {s : Schema} :
    gatherVariants graph site values (some s) variants ≠ .ok (all, none) := by
  induction variants generalizing values with
  | nil => simp [gatherVariants]
  | cons variant rest ih =>
    unfold gatherVariants
    split <;> simp_all

/-- What is gathered from variants without a scalar are the values that they list. -/
theorem gatherVariants_none_iff (known : ∀ v ∈ variants, graph.resolve v.1 = .ok v.2) :
    gatherVariants graph site values none variants = .ok (all, none) ↔
      (∀ ref ∈ variants.map Prod.fst, (graph.listed? ref).isSome) ∧
        all = values ++ graph.listed (variants.map Prod.fst) := by
  induction variants generalizing values with
  | nil => simpa [gatherVariants, TypeGraph.listed] using eq_comm
  | cons variant rest ih =>
    obtain ⟨ref, resolved⟩ := variant
    have here : graph.resolve ref = .ok resolved := known _ List.mem_cons_self
    have ih (values : List Json) :=
      @ih values fun v member => known v (List.mem_cons_of_mem _ member)
    have listed : graph.listed (ref :: rest.map Prod.fst) =
        (graph.listed? ref).getD [] ++ graph.listed (rest.map Prod.fst) := List.flatMap_cons
    have lists : graph.listed? ref = resolved.listed? := by simp [TypeGraph.listed?, here]
    simp only [List.map_cons, List.forall_mem_cons, listed, lists]
    unfold gatherVariants
    cases resolved with
    | literal value => simpa [Resolved.listed?] using ih (values ++ [value])
    | builtin builtin => simpa [Resolved.listed?] using gatherVariants_some
    | intrinsic intrinsic => simp [Resolved.listed?]
    | declared id decl =>
      cases decl with
      | enum decl => simpa [Resolved.listed?] using ih (values ++ decl.values)
      | scalar decl =>
        simp only [Resolved.listed?, Option.isSome_none, Bool.false_eq_true, false_and, iff_false]
        split
        · exact gatherVariants_some
        · simp
      | _ => simp [Resolved.listed?]

end Variants

variable {c : Converter} {models : ModelStep} {types : TypeStep} {fuel : Nat}
  {type ref last : TypeRef} {id : TypeId} {ctx : Context} {site layers : List Constraints}
  {variants : List (TypeRef × Resolved)} {values : List Json} {g g' : Gathered}
  {a : Option Schema}

/-- One report is made, and nothing else. -/
def Told (c : Converter) (g g' : Gathered) : Prop :=
  ∃ code message, g' = { g with diagnostics := g.diagnostics.report code c.target message }

theorem Told.diagnostics_ne (told : Told c g g') : g'.diagnostics ≠ g.diagnostics := by
  obtain ⟨code, message, rfl⟩ := told
  simp [Diagnostics.report]

theorem told_of_report {code : DiagnosticCode} {message : String}
    (run : Yields (do c.report code message; return none) g a g') : Told c g g' := by
  obtain ⟨_, g₁, reported, run⟩ := yields_bind.mp run
  obtain ⟨-, rfl⟩ := yields_pure.mp run
  exact ⟨code, message, (Prod.mk.inj reported).2.symm⟩

theorem literal_none {value : Json} (run : Yields (c.literal value) g none g') :
    Told c g g' := by
  unfold literal at run
  split at run
  · exact told_of_report run
  · simp at run

theorem enumeration_none {decl : EnumType} (run : Yields (c.enumeration decl site) g none g') :
    Told c g g' := by
  unfold enumeration at run
  split at run
  · exact told_of_report run
  · obtain ⟨kind, g₁, -, run⟩ := yields_bind.mp run
    simp at run

theorem enumUnion_of_unlike {decl : UnionType} (unlike : Unlike values)
    (gathered : gatherVariants c.graph site [] none variants = .ok (values, none)) :
    c.enumUnion decl variants site = pure none := by
  simp [enumUnion, gathered, ofValues?_eq_none_iff.mpr unlike]

theorem enumUnion_none {decl : UnionType} (several : 2 ≤ variants.length)
    (run : Yields (c.enumUnion decl variants site) g none g') :
    Told c g g' ∨ g' = g ∧ ∃ values, Unlike values ∧
      gatherVariants c.graph site [] none variants = .ok (values, none) := by
  unfold enumUnion at run
  split at run
  · exact .inl (told_of_report run)
  rename_i values scalar gathered
  split at run
  · rename_i kindless
    obtain ⟨rfl, kindless⟩ := Option.or_eq_none_iff.mp kindless
    obtain ⟨-, rfl⟩ := yields_pure.mp run
    refine .inr ⟨rfl, values, ?_, gathered⟩
    simpa [ofValues?_eq_none_iff] using kindless
  · left
    split at run
    · split at run
      · simp at run
      · obtain ⟨kind, g₁, -, run⟩ := yields_bind.mp run
        simp at run
    · split at run
      · exact told_of_report run
      · simp at several

theorem oneOf_several {decl : UnionType} (several : 2 ≤ variants.length) :
    c.oneOf types decl variants ctx site = c.enumUnion decl variants site := by
  unfold oneOf
  split <;> simp_all

/-- A union without schema goes on with its one variant, is a mixture, or says why. -/
theorem union_none {decl : UnionType}
    (here : c.graph.resolve type = .ok (.declared id (.union decl)))
    (run : Yields (c.union types decl ctx site) g none g') :
    (∃ ref, HandsDown c.graph type ref [] ∧ Yields (types ref ctx site) g none g') ∨
      (c.graph.IsMixture type id decl ∧ g' = g) ∨ Told c g g' := by
  obtain ⟨variants, schema, chosen, known, one, same⟩ := oneOf_of_union run
  obtain rfl := Option.map_eq_none_iff.mp same.symm
  match variants with
  | [] => exact .inr (.inr (told_of_report one))
  | [(ref, r)] => exact .inl ⟨ref, .variant here chosen.symm, one⟩
  | v :: w :: rest =>
    have several : 2 ≤ (v :: w :: rest).length := by simp
    rcases enumUnion_none several one with told | ⟨rfl, values, unlike, gathered⟩
    · exact .inr (.inr told)
    · obtain ⟨lists, rfl⟩ := (gatherVariants_none_iff known).mp gathered
      rw [chosen] at lists unlike
      refine .inr (.inl ⟨⟨here, ?_, lists, unlike⟩, rfl⟩)
      simp [← chosen]

/-- A conversion without schema goes on with another type, has met a silent one, or says why. -/
theorem typeStep_none (run : Yields (c.typeStep models types type ctx site) g none g') :
    (∃ ref layers ctx', HandsDown c.graph type ref layers ∧
        Yields (types ref ctx' (site ++ layers)) g none g') ∨
      (c.graph.IsSilent type ∧ g' = g) ∨ Told c g g' := by
  obtain ⟨resolved, g₁, found, run⟩ := yields_bind.mp run
  obtain ⟨here, rfl⟩ := yields_ofResolve.mp found
  cases resolved with
  | literal value => exact .inr (.inr (literal_none run))
  | builtin builtin => simp at run
  | intrinsic intrinsic =>
    cases intrinsic with
    | null => exact .inr (.inr (told_of_report run))
    | never => exact .inr (.inl ⟨.inl (.inl here), (yields_pure.mp run).2.symm⟩)
    | void => exact .inr (.inl ⟨.inl (.inr here), (yields_pure.mp run).2.symm⟩)
    | unknown => simp [intrinsic] at run
  | declared id decl =>
    cases decl with
    | scalar decl =>
      obtain ⟨chain, g₂, -, run⟩ := yields_bind.mp run
      simp at run
    | model model =>
      simp only [declared] at run
      split at run
      · obtain ⟨additional, g₂, -, run⟩ := yields_bind.mp run
        simp at run
      · obtain ⟨schema, g₂, -, run⟩ := yields_bind.mp run
        simp at run
    | array decl =>
      obtain ⟨item, g₂, -, run⟩ := yields_bind.mp run
      simp at run
    | enum decl => exact .inr (.inr (enumeration_none run))
    | union decl =>
      rcases union_none here run with ⟨ref, down, run⟩ | ⟨mixture, rfl⟩ | told
      · exact .inl ⟨ref, [], ctx, down, by simpa using run⟩
      · exact .inr (.inl ⟨.inr ⟨id, decl, mixture⟩, rfl⟩)
      · exact .inr (.inr told)
    | property link =>
      obtain ⟨⟨owner, model⟩, g₂, named, run⟩ := yields_bind.mp run
      obtain ⟨resolved, rfl⟩ := yields_ofResolve.mp named
      simp only at run
      split at run
      · simp at run
      · rename_i property known
        exact .inl ⟨property.type, [property.constraints], _, .link here resolved known, run⟩

theorem typesWithin_none (run : Yields (c.typesWithin models fuel type ctx site) g none g') :
    (∃ last, LeadsTo c.graph type last ∧ c.graph.IsSilent last ∧ g' = g) ∨ Told c g g' := by
  induction fuel generalizing type ctx site with
  | zero => simp [typesWithin] at run
  | succ fuel ih =>
    rcases typeStep_none run with ⟨ref, layers, ctx', down, run⟩ | ⟨silent, same⟩ | told
    · rcases ih run with ⟨last, leads, silent, same⟩ | told
      · exact .inl ⟨last, .down down leads, silent, same⟩
      · exact .inr told
    · exact .inl ⟨type, .here, silent, same⟩
    · exact .inr told

theorem typeStep_silent (silent : c.graph.IsSilent type)
    (run : Yields (c.typeStep models types type ctx site) g a g') : a = none ∧ g' = g := by
  obtain ⟨resolved, g₁, found, run⟩ := yields_bind.mp run
  obtain ⟨here, rfl⟩ := yields_ofResolve.mp found
  rcases silent with (never | void) | ⟨id, decl, mixture⟩
  · obtain rfl := Except.ok.inj (here.symm.trans never)
    obtain ⟨rfl, rfl⟩ := yields_pure.mp run
    exact ⟨rfl, rfl⟩
  · obtain rfl := Except.ok.inj (here.symm.trans void)
    obtain ⟨rfl, rfl⟩ := yields_pure.mp run
    exact ⟨rfl, rfl⟩
  · obtain rfl := Except.ok.inj (here.symm.trans mixture.resolved)
    obtain ⟨variants, schema, chosen, known, one, same⟩ := oneOf_of_union run
    have several : 2 ≤ variants.length := by
      rw [← List.length_map (f := Prod.fst), chosen]
      exact mixture.several
    have gathered : gatherVariants c.graph site [] none variants =
        .ok (c.graph.listed (variants.map Prod.fst), none) :=
      (gatherVariants_none_iff known).mpr ⟨chosen ▸ mixture.lists, rfl⟩
    rw [oneOf_several several, enumUnion_of_unlike (chosen ▸ mixture.unlike) gathered] at one
    obtain ⟨rfl, rfl⟩ := yields_pure.mp one
    exact ⟨Option.map_eq_none_iff.mp same, rfl⟩

theorem typesWithin_silent (leads : LeadsTo c.graph type last) (silent : c.graph.IsSilent last)
    (run : Yields (c.typesWithin models fuel type ctx site) g a g') : a = none ∧ g' = g := by
  induction leads generalizing fuel ctx site a with
  | here =>
    cases fuel with
    | zero => simp [typesWithin] at run
    | succ fuel => exact typeStep_silent silent run
  | down down leads ih =>
    cases fuel with
    | zero => simp [typesWithin] at run
    | succ fuel =>
      obtain ⟨ctx', a', run, same⟩ := down.kind run
      obtain ⟨rfl, same'⟩ := ih silent run
      exact ⟨Option.map_eq_none_iff.mp same, same'⟩

namespace Converter

/-- A conversion gives nothing and reports nothing exactly if the type leads to one without values
or to a union of values that no kind of schema admits all of. Where it gives nothing otherwise, it
makes one report; the classes stay as they are. -/
theorem silent_iff (run : Yields (c.convert type ctx site) g a g') :
    (a = none ∧ g'.diagnostics = g.diagnostics ↔ ∃ last, LeadsTo c.graph type last ∧
      (c.graph.IsEmpty last ∨ ∃ id decl, c.graph.IsMixture last id decl)) ∧
    (a = none → g'.classes = g.classes ∧ (g'.diagnostics = g.diagnostics ∨
      ∃ code message, g'.diagnostics = g.diagnostics.report code c.target message)) := by
  refine ⟨⟨?_, ?_⟩, ?_⟩
  · rintro ⟨rfl, same⟩
    rcases typesWithin_none run with ⟨last, leads, silent, -⟩ | told
    · exact ⟨last, leads, silent⟩
    · exact absurd same told.diagnostics_ne
  · rintro ⟨last, leads, silent⟩
    obtain ⟨rfl, rfl⟩ := typesWithin_silent leads silent run
    exact ⟨rfl, rfl⟩
  · rintro rfl
    rcases typesWithin_none run with ⟨last, leads, silent, rfl⟩ | ⟨code, message, rfl⟩
    · exact ⟨rfl, .inl rfl⟩
    · exact ⟨rfl, .inr ⟨code, message, rfl⟩⟩

/-- A union of a text and a number, and one of nothing but null and no value. -/
def mixed : Converter where
  target := "Mixed"
  graph := {
    version := "1"
    types := .ofEntries [
      ("Mixed", .union {
        name := "Mixed"
        variants := [.literal (.string "a"), .literal (.integer 1)] }),
      ("Nothing", .union { name := "Nothing", variants := [.named "null", .named "void"] })] }

theorem nothing_silent :
    Yields (mixed.convert (.named "Nothing") { visibility := .read } []) ⟨{}, []⟩ none ⟨{}, []⟩ ∧
      ∃ last, LeadsTo mixed.graph (.named "Nothing") last ∧
        (mixed.graph.IsEmpty last ∨ ∃ id decl, mixed.graph.IsMixture last id decl) := by
  have run : Yields (mixed.convert (.named "Nothing") { visibility := .read } []) ⟨{}, []⟩ none
      ⟨{}, []⟩ := rfl
  exact ⟨run, (silent_iff run).1.mp ⟨rfl, rfl⟩⟩

/-- The union has two values, and yet it gives nothing without a word. -/
theorem mixed_silent :
    Yields (mixed.convert (.named "Mixed") { visibility := .read } []) ⟨{}, []⟩ none ⟨{}, []⟩ ∧
      ¬ ∃ last, LeadsTo mixed.graph (.named "Mixed") last ∧ mixed.graph.IsEmpty last := by
  have here : mixed.graph.resolve (.named "Mixed") = .ok (.declared ⟨0⟩ (.union {
      name := "Mixed"
      variants := [.literal (.string "a"), .literal (.integer 1)] })) := rfl
  refine ⟨rfl, ?_⟩
  rintro ⟨last, leads, empty⟩
  cases leads with
  | here => simp [TypeGraph.IsEmpty, here] at empty
  | down down leads =>
    cases down with
    | variant there alone =>
      obtain ⟨rfl, rfl⟩ : _ ∧ _ := by simpa [here] using there
      simp [TypeGraph.isNull, TypeGraph.resolve, isNullVariant] at alone
    | link there owner known => simp [here] at there

end Converter
end WireSchema
