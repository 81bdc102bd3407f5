import WireSchema.Proofs.Parallel
import WireSchema.Proofs.References

/-! Graphs that agree under a visibility. The declarations of the one stand in the other under their
keys, perhaps at other places, and differ at most in property declarations of which nothing shows.
What a conversion looks up in the one graph it finds in the other as well. -/
namespace WireSchema

/-- Nothing shows of a property declaration but that it is there: it is hidden, no model of the
graph is told apart by its name, and no declaration refers to it. -/
structure TypeGraph.Conceals (graph : TypeGraph) (v : Visibility) (key name : String)
    (p : Property) : Prop where
  hidden : p.isVisible v = false
  untold : ∀ id model, graph.model? id = some model → model.discriminator ≠ some name
  unlinked : ∀ id, graph.declaration? id ≠ some (.property ⟨key, name⟩)

/-- One property declaration, or two of one name of which nothing shows. The key is that of the
model. -/
inductive AgreeingProperty (graph : TypeGraph) (v : Visibility) (key : String) :
    String × Property → String × Property → Prop
  | same {e : String × Property} : AgreeingProperty graph v key e e
  | concealed {name : String} {p p' : Property} : graph.Conceals v key name p →
      p'.visibility = p.visibility → AgreeingProperty graph v key (name, p) (name, p')

inductive AgreeingModel (graph : TypeGraph) (v : Visibility) (key : String) :
    ModelType → ModelType → Prop
  | intro {model : ModelType} {properties : OrderedMap String Property} :
      List.Forall₂ (AgreeingProperty graph v key) model.properties.entries properties.entries →
      AgreeingModel graph v key model { model with properties }

/-- One declaration, or two models that agree. -/
inductive AgreeingDeclaration (graph : TypeGraph) (v : Visibility) (key : String) :
    Declaration → Declaration → Prop
  | scalar {decl : ScalarType} : AgreeingDeclaration graph v key (.scalar decl) (.scalar decl)
  | model {model model' : ModelType} : AgreeingModel graph v key model model' →
      AgreeingDeclaration graph v key (.model model) (.model model')
  | array {decl : ArrayType} : AgreeingDeclaration graph v key (.array decl) (.array decl)
  | union {decl : UnionType} : AgreeingDeclaration graph v key (.union decl) (.union decl)
  | enum {decl : EnumType} : AgreeingDeclaration graph v key (.enum decl) (.enum decl)
  | property {link : PropertyLink} :
      AgreeingDeclaration graph v key (.property link) (.property link)

/-- The second graph declares what the first one does, at the places that `ρ` gives. -/
structure Agree (v : Visibility) (ρ : TypeId → TypeId) (graph graph' : TypeGraph) : Prop where
  injective : Function.Injective ρ
  service : graph'.service = graph.service
  size : graph'.types.size = graph.types.size
  entry : ∀ id : TypeId, Option.Rel
    (fun e e' => e'.1 = e.1 ∧ AgreeingDeclaration graph v e.1 e.2 e'.2)
    (graph.types.entryAt? id.index) (graph'.types.entryAt? (ρ id).index)
  place : ∀ name, (graph'.types.index? name).map TypeId.mk =
    (graph.types.index? name).map fun i => ρ ⟨i⟩

inductive AgreeingResolved (graph : TypeGraph) (v : Visibility) (ρ : TypeId → TypeId)
    (key : String) : Resolved → Resolved → Prop
  | declared {id : TypeId} {decl decl' : Declaration} : AgreeingDeclaration graph v key decl decl' →
      AgreeingResolved graph v ρ key (.declared id decl) (.declared (ρ id) decl')
  | builtin {scalar : BuiltinScalar} :
      AgreeingResolved graph v ρ key (.builtin scalar) (.builtin scalar)
  | intrinsic {type : Intrinsic} :
      AgreeingResolved graph v ρ key (.intrinsic type) (.intrinsic type)
  | literal {value : Json} : AgreeingResolved graph v ρ key (.literal value) (.literal value)

namespace AgreeingModel

variable {graph : TypeGraph} {v : Visibility} {key : String} {model model' : ModelType}

theorem refl (model : ModelType) : AgreeingModel graph v key model model :=
  .intro (List.forall₂_same.mpr fun _ _ => .same)

/-- A property that is not concealed is declared in the same way. -/
theorem lookup_eq {entries entries' : List (String × Property)}
    (agree : List.Forall₂ (AgreeingProperty graph v key) entries entries') {name : String}
    (shown : ∀ p, ¬ graph.Conceals v key name p) : entries'.lookup name = entries.lookup name := by
  induction agree with
  | nil => rfl
  | cons here _ ih =>
    rw [List.lookup_cons, List.lookup_cons, ih]
    cases here with
    | same => rfl
    | @concealed other p p' conceals =>
      have differs : (name == other) = false :=
        beq_false_of_ne fun same => shown p (same ▸ conceals)
      simp [differs]

theorem get?_eq (agree : AgreeingModel graph v key model model') {name : String}
    (shown : ∀ p, ¬ graph.Conceals v key name p) :
    model'.properties.get? name = model.properties.get? name := by
  obtain ⟨entries⟩ := agree
  exact lookup_eq entries shown

theorem isRecord_eq (agree : AgreeingModel graph v key model model') :
    model'.isRecord = model.isRecord := by
  obtain ⟨entries⟩ := agree
  have empty : ∀ {es es' : List (String × Property)},
      List.Forall₂ (AgreeingProperty graph v key) es es' → es'.isEmpty = es.isEmpty := by
    rintro _ _ (_ | _) <;> rfl
  simp only [ModelType.isRecord, OrderedMap.isEmpty, empty entries]

end AgreeingModel

theorem AgreeingDeclaration.refl {graph : TypeGraph} {v : Visibility} {key : String}
    (decl : Declaration) : AgreeingDeclaration graph v key decl decl := by
  cases decl with
  | model model => exact .model (.refl model)
  | scalar decl => exact .scalar
  | array decl => exact .array
  | union decl => exact .union
  | enum decl => exact .enum
  | property link => exact .property

def EffectiveProperty.renumber (ρ : TypeId → TypeId) (p : EffectiveProperty) : EffectiveProperty :=
  { p with owner := ρ p.owner }

@[simp] theorem EffectiveProperty.name_renumber (ρ : TypeId → TypeId) (p : EffectiveProperty) :
    (p.renumber ρ).name = p.name := rfl

@[simp] theorem EffectiveProperty.decl_renumber (ρ : TypeId → TypeId) (p : EffectiveProperty) :
    (p.renumber ρ).decl = p.decl := rfl

namespace Agree

variable {v : Visibility} {ρ : TypeId → TypeId} {graph graph' : TypeGraph}

section Lookups

variable (agree : Agree v ρ graph graph')
include agree

theorem find?_agrees (name : String) :
    Option.Rel (fun d d' => d'.1 = ρ d.1 ∧ AgreeingDeclaration graph v name d.2 d'.2)
      (graph.find? name) (graph'.find? name) := by
  have place := agree.place name
  unfold TypeGraph.find?
  cases index : graph.types.index? name with
  | none =>
    rw [index, Option.map_none, Option.map_eq_none_iff] at place
    rw [place]
    exact .none
  | some i =>
    rw [index, Option.map_some] at place
    obtain ⟨j, index', place⟩ := Option.map_eq_some_iff.mp place
    obtain ⟨decl, here⟩ := OrderedMap.index?_eq_some_iff.mp index
    obtain ⟨decl', there⟩ := OrderedMap.index?_eq_some_iff.mp index'
    have entry := agree.entry ⟨i⟩
    rw [← place, here, there] at entry
    cases entry with
    | some related =>
      simp only [index', here, there, Option.bind_eq_bind, Option.bind_some]
      exact .some ⟨place, related.2⟩

theorem resolveName_agrees (name : String) :
    Match (AgreeingResolved graph v ρ name) (graph.resolveName name) (graph'.resolveName name) := by
  have found := agree.find?_agrees name
  unfold TypeGraph.resolveName
  generalize graph.find? name = d at found
  generalize graph'.find? name = d' at found
  cases found with
  | @some d d' related =>
    obtain ⟨id, decl⟩ := d
    obtain ⟨id', decl'⟩ := d'
    obtain ⟨rfl, related⟩ := related
    exact .ok (.declared related)
  | none =>
    cases BuiltinScalar.ofName? name with
    | some scalar => exact .ok .builtin
    | none =>
      cases Intrinsic.ofName? name with
      | some type => exact .ok .intrinsic
      | none => exact .error

theorem resolve_agrees (type : TypeRef) :
    Match (AgreeingResolved graph v ρ type.text) (graph.resolve type) (graph'.resolve type) := by
  cases type with
  | named name => exact agree.resolveName_agrees name
  | literal value => exact .ok .literal

theorem modelNamed_agrees (name : String) :
    Match (fun m m' => m'.1 = ρ m.1 ∧ AgreeingModel graph v name m.2 m'.2)
      (graph.modelNamed name) (graph'.modelNamed name) := by
  refine (agree.resolveName_agrees name).bind fun r r' related => ?_
  cases related with
  | declared related =>
    cases related with
    | model related => exact .ok ⟨rfl, related⟩
    | _ => exact .error
  | _ => exact .error

theorem key_eq (id : TypeId) : graph'.key (ρ id) = graph.key id := by
  have entry := agree.entry id
  unfold TypeGraph.key
  generalize graph.types.entryAt? id.index = e at entry
  generalize graph'.types.entryAt? (ρ id).index = e' at entry
  cases entry with
  | some related => exact related.1
  | none => rfl

theorem declaration?_agrees (id : TypeId) :
    graph.declaration? id = none ∧ graph'.declaration? (ρ id) = none ∨
      ∃ decl decl', graph.declaration? id = some decl ∧ graph'.declaration? (ρ id) = some decl' ∧
        AgreeingDeclaration graph v (graph.key id) decl decl' := by
  have entry := agree.entry id
  unfold TypeGraph.declaration? TypeGraph.key
  generalize graph.types.entryAt? id.index = e at entry
  generalize graph'.types.entryAt? (ρ id).index = e' at entry
  cases entry with
  | some related => exact .inr ⟨_, _, rfl, rfl, related.2⟩
  | none => exact .inl ⟨rfl, rfl⟩

theorem model?_agrees (id : TypeId) :
    graph.model? id = none ∧ graph'.model? (ρ id) = none ∨
      ∃ model model', graph.model? id = some model ∧ graph'.model? (ρ id) = some model' ∧
        AgreeingModel graph v (graph.key id) model model' := by
  unfold TypeGraph.model?
  obtain ⟨here, there⟩ | ⟨decl, decl', here, there, related⟩ := agree.declaration?_agrees id
  · simp [here, there]
  · rw [here, there]
    cases related with
    | model related => exact .inr ⟨_, _, rfl, rfl, related⟩
    | _ => exact .inl ⟨rfl, rfl⟩

theorem model?_header {α : Type} (f : Option ModelType → α)
    (header : ∀ (model : ModelType) properties,
      f (some { model with properties }) = f (some model)) (id : TypeId) :
    f (graph'.model? (ρ id)) = f (graph.model? id) := by
  obtain ⟨here, there⟩ | ⟨model, model', here, there, ⟨entries⟩⟩ := agree.model?_agrees id
  · rw [here, there]
  · rw [here, there]
    exact header _ _

theorem modelName_eq (id : TypeId) : graph'.modelName (ρ id) = graph.modelName id := by
  unfold TypeGraph.modelName
  rw [agree.key_eq]
  obtain ⟨here, there⟩ | ⟨model, model', here, there, ⟨entries⟩⟩ := agree.model?_agrees id
  · rw [here, there]
  · rw [here, there]

theorem contains_eq (ids : List TypeId) (id : TypeId) :
    (ids.map ρ).contains (ρ id) = ids.contains id := by
  rw [Bool.eq_iff_iff, List.contains_iff_mem, List.contains_iff_mem]
  exact List.mem_map_of_injective agree.injective

theorem follow_eq (fuel : Nat) (seen : List TypeId) (id : TypeId) :
    ScalarChain.follow graph' fuel (seen.map ρ) (ρ id) = ScalarChain.follow graph fuel seen id := by
  induction fuel generalizing seen id with
  | zero => rw [ScalarChain.follow, ScalarChain.follow, agree.key_eq]
  | succ fuel ih =>
    unfold ScalarChain.follow ScalarChain.root
    rw [agree.key_eq, agree.contains_eq]
    obtain ⟨here, there⟩ | ⟨decl, decl', here, there, related⟩ := agree.declaration?_agrees id
    · rw [here, there]
    rw [here, there]
    cases related with
    | @scalar decl =>
      simp only
      split
      · rfl
      split
      · rfl
      rename_i base _
      refine Match.eq ?_ |>.symm
      refine (agree.resolveName_agrees base).bind fun r r' related => ?_
      cases related with
      | @declared next decl decl' related =>
        cases related with
        | scalar =>
          have further := ih (id :: seen) next
          rw [List.map_cons] at further
          simp only [further]
          exact .refl _
        | _ => exact .refl _
      | _ => exact .refl _
    | _ => rfl

theorem ofDeclared_eq (id : TypeId) :
    ScalarChain.ofDeclared graph' (ρ id) = ScalarChain.ofDeclared graph id := by
  rw [ScalarChain.ofDeclared, agree.size]
  exact agree.follow_eq _ [] id

theorem isSecret_eq (type : TypeRef) (site : Constraints) :
    graph'.isSecret type site = graph.isSecret type site := by
  unfold TypeGraph.isSecret
  obtain ⟨e, here, there⟩ | ⟨r, r', here, there, related⟩ := (agree.resolve_agrees type).cases
  · rw [here, there]
  rw [here, there]
  cases related with
  | declared related => cases related <;> simp [agree.ofDeclared_eq]
  | _ => rfl

theorem singleText?_eq (type : TypeRef) : graph'.singleText? type = graph.singleText? type := by
  unfold TypeGraph.singleText?
  rw [agree.size]
  induction graph.types.size + 1 generalizing type with
  | zero => rfl
  | succ fuel ih =>
    unfold TypeGraph.singleTextWithin
    obtain ⟨e, here, there⟩ | ⟨r, r', here, there, related⟩ := (agree.resolve_agrees type).cases
    · rw [here, there]
    rw [here, there]
    cases related with
    | declared related => cases related <;> simp only [ih]
    | literal => simp only [ih]
    | _ => rfl

theorem pinnedValue?_eq {key : String} {model model' : ModelType}
    (related : AgreeingModel graph v key model model') {property : String}
    (told : ∃ id host, graph.model? id = some host ∧ host.discriminator = some property) :
    graph'.pinnedValue? model' property = graph.pinnedValue? model property := by
  obtain ⟨id, host, here, discriminates⟩ := told
  have shown (p : Property) : ¬ graph.Conceals v key property p := fun conceals =>
    conceals.untold id host here discriminates
  unfold TypeGraph.pinnedValue?
  rw [related.get?_eq shown]
  simp only [agree.singleText?_eq]

theorem bases_agree (fuel : Nat) (seen : List TypeId) (id : TypeId) :
    Match (fun ids ids' => ids' = ids.map ρ) (graph.bases fuel seen id)
      (graph'.bases fuel (seen.map ρ) (ρ id)) := by
  induction fuel generalizing seen id with
  | zero => exact .ok rfl
  | succ fuel ih =>
    unfold TypeGraph.bases
    rw [agree.model?_header (·.bind (·.base)) fun _ _ => rfl]
    cases (graph.model? id).bind (·.base) with
    | none => exact .ok rfl
    | some base =>
      refine (agree.modelNamed_agrees base).bind fun m m' related => ?_
      obtain ⟨next, model⟩ := m
      obtain ⟨next', model'⟩ := m'
      obtain ⟨rfl, -⟩ := related
      simp only [agree.contains_eq]
      split
      · exact .ok rfl
      · refine (ih (next :: seen) next).bind fun ids ids' same => ?_
        subst same
        exact .ok rfl

theorem ancestry_agrees (id : TypeId) :
    Match (fun ids ids' => ids' = ids.map ρ) (graph.ancestry id) (graph'.ancestry (ρ id)) := by
  unfold TypeGraph.ancestry
  rw [agree.size]
  refine (agree.bases_agree _ [id] id).bind fun ids ids' same => ?_
  subst same
  exact .ok (by simp)

theorem discriminatorNames_eq (chain : List TypeId) :
    graph'.discriminatorNames (chain.map ρ) = graph.discriminatorNames chain := by
  unfold TypeGraph.discriminatorNames
  rw [List.filterMap_map]
  congr 1
  funext id
  exact agree.model?_header (·.bind (·.discriminator)) (fun _ _ => rfl) id

end Lookups

theorem declare_eq {key : String} {e e' : String × Property}
    (related : AgreeingProperty graph v key e e') (discriminators : List String) (owner : TypeId)
    (properties : List EffectiveProperty) :
    TypeGraph.declare discriminators v (ρ owner) (properties.map (·.renumber ρ)) e'.1 e'.2 =
      (TypeGraph.declare discriminators v owner properties e.1 e.2).map (·.renumber ρ) := by
  have declared (name : String) (p : Property) :
      TypeGraph.declare discriminators v (ρ owner) (properties.map (·.renumber ρ)) name p =
        (TypeGraph.declare discriminators v owner properties name p).map (·.renumber ρ) := by
    unfold TypeGraph.declare
    split
    · have known : (properties.map (·.renumber ρ)).any (·.name == name) =
          properties.any (·.name == name) := by
        rw [List.any_map]
        rfl
      rw [known]
      split
      · rw [List.map_map, List.map_map]
        refine List.map_congr_left fun q _ => ?_
        by_cases same : q.name = name <;> simp [EffectiveProperty.renumber, same]
      · simp [EffectiveProperty.renumber]
    · rw [List.filter_map]
      rfl
  cases related with
  | same => exact declared _ _
  | @concealed name p p' conceals same =>
    have hidden := conceals.hidden
    have hidden' : p'.isVisible v = false := by rwa [Property.isVisible, same]
    rw [← declared]
    simp [TypeGraph.declare, hidden, hidden']

theorem collect_eq (agree : Agree v ρ graph graph') (chain : List TypeId)
    (discriminators : List String) :
    graph'.collect (chain.map ρ) discriminators v =
      (graph.collect chain discriminators v).map (·.renumber ρ) := by
  have entries {key : String} {es es' : List (String × Property)}
      (related : List.Forall₂ (AgreeingProperty graph v key) es es') (owner : TypeId)
      (properties : List EffectiveProperty) :
      es'.foldl (fun ps e => TypeGraph.declare discriminators v (ρ owner) ps e.1 e.2)
          (properties.map (·.renumber ρ)) =
        (es.foldl (fun ps e => TypeGraph.declare discriminators v owner ps e.1 e.2)
          properties).map (·.renumber ρ) := by
    induction related generalizing properties with
    | nil => rfl
    | cons here _ ih => rw [List.foldl_cons, List.foldl_cons, declare_eq here, ih]
  unfold TypeGraph.collect
  rw [List.foldl_map]
  change List.foldl _ (List.map (EffectiveProperty.renumber ρ) []) chain = _
  refine List.foldl_hom (List.map (EffectiveProperty.renumber ρ)) (fun properties owner => ?_)
  obtain ⟨here, there⟩ | ⟨model, model', here, there, ⟨related⟩⟩ := agree.model?_agrees owner
  · rw [here, there]
  · rw [here, there]
    exact entries related owner properties

theorem payload_agrees (agree : Agree v ρ graph graph') (id : TypeId) :
    Match (fun ps ps' => ps' = ps.map (·.renumber ρ)) (graph.payload id v)
      (graph'.payload (ρ id) v) := by
  refine (agree.ancestry_agrees id).bind fun chain chain' same => ?_
  subst same
  rw [agree.discriminatorNames_eq]
  exact .ok (agree.collect_eq chain _)

theorem definitionBase_eq (agree : Agree v ρ graph graph') (id : TypeId) :
    Naming.definitionBase graph' (ρ id) = Naming.definitionBase graph id := by
  unfold Naming.definitionBase
  rw [agree.size]
  induction graph.types.size + 1 generalizing id with
  | zero => simp only [Naming.definitionBaseFrom, agree.modelName_eq]
  | succ depth ih =>
    unfold Naming.definitionBaseFrom
    rw [agree.modelName_eq]
    obtain ⟨here, there⟩ | ⟨model, model', here, there, ⟨entries⟩⟩ := agree.model?_agrees id
    · rw [here, there]
    rw [here, there]
    refine congrArg (fun names => String.join (_ :: names)) ?_
    refine List.map_congr_left fun type _ => ?_
    cases type with
    | literal value => rfl
    | named name =>
      simp only
      obtain ⟨e, here, there⟩ | ⟨r, r', here, there, related⟩ :=
        (agree.resolveName_agrees name).cases
      · rw [here, there]
      rw [here, there]
      cases related with
      | @declared argument decl decl' related =>
        cases related with
        | model => exact ih argument
        | _ => rfl
      | _ => rfl

section Tables

variable (agree : Agree v ρ graph graph') (t : ClassTable) (stage : Stage)
include agree

theorem isAmbiguous_eq (type : TypeId) :
    (t.renumber ρ).isAmbiguous (ρ type) = t.isAmbiguous type := by
  unfold ClassTable.isAmbiguous ClassTable.renumber
  rw [List.filter_map, List.length_map]
  have same : ∀ r ∈ t.records, ((fun r => r.isShared && r.type = ρ type) ∘ (·.renumber ρ)) r =
      (r.isShared && r.type = type) := fun r _ => by
    simp [ClassRecord.renumber, ClassRecord.isShared, agree.injective.eq_iff]
  rw [List.filter_congr same]

theorem wantedName_eq (r : ClassRecord) :
    (t.renumber ρ).wantedName graph' stage (r.renumber ρ) = t.wantedName graph stage r := by
  simp only [ClassTable.wantedName, ClassRecord.renumber, agree.definitionBase_eq,
    agree.isAmbiguous_eq]
  rfl

/-- The classes get the same names in both graphs. -/
theorem finalize_eq :
    (t.renumber ρ).finalize graph' stage = (t.finalize graph stage).renumber ρ := by
  have named (wanted wanted' : ClassRecord → String)
      (same : ∀ r, wanted' (r.renumber ρ) = wanted r) (used : List String)
      (records : List ClassRecord) :
      ClassTable.nameRecords wanted' used (records.map (·.renumber ρ)) =
        (ClassTable.nameRecords wanted used records).map (·.renumber ρ) := by
    induction records generalizing used with
    | nil => rfl
    | cons r rest ih =>
      have shared : (r.renumber ρ).isShared = r.isShared := rfl
      simp only [List.map_cons, ClassTable.nameRecords, same, shared]
      split
      · rw [ih]
        rfl
      · rw [ih]
        rfl
  exact congrArg ClassTable.mk (named _ _ (agree.wantedName_eq t stage) [] t.records)

end Tables

end Agree
end WireSchema
