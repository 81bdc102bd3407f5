import WireSchema.Proofs.Calls
import WireSchema.Proofs.References

/-! What holds of a conversion because it holds of the steps that it consists of. The layers below
models are gone through once, for any judgement about steps; a judgement that is known of models is
then known of all that is converted with them. -/
namespace WireSchema

open ConvertM Converter

def DiagnosticCode.isOfTypes : DiagnosticCode → Bool
  | unsupportedType | unionNull | unionUnsupported => true
  | _ => false

/-- A judgement about a step and what it gives, as far as types are concerned. The step may be
another one in each of the worlds `ι`, which differ in the way in which they convert models. A
sequence is judged by what comes first, and by the rest for every result that this may have. -/
structure TypeJudgement (c : Converter) {ι : Type}
    (P : ∀ {α : Type}, (ι → ConvertM α) → (α → Prop) → Prop) : Prop where
  pure {α : Type} {a : α} {p : α → Prop} : p a → P (fun _ => pure a) p
  throw {α : Type} {e : ConvertError} {p : α → Prop} : e ≠ .endless → P (fun _ => throw e) p
  reportType {code : DiagnosticCode} (message : String) :
    code.isOfTypes → P (fun _ => c.report code message) fun _ => True
  bind {α β : Type} {x : ι → ConvertM α} {f : ι → α → ConvertM β} {p : α → Prop} {q : β → Prop} :
    P x p → (∀ a, p a → P (fun i => f i a) q) → P (fun i => x i >>= f i) q

/-- A judgement that is known of all reports, also of those that are not about types. -/
structure Compositional (c : Converter) {ι : Type}
    (P : ∀ {α : Type}, (ι → ConvertM α) → (α → Prop) → Prop) : Prop
    extends TypeJudgement c @P where
  report (code : DiagnosticCode) (message : String) :
    P (fun _ => c.report code message) fun _ => True
  reportType := fun message _ => report _ message

namespace TypeJudgement

variable {c : Converter} {ι : Type} {P : ∀ {α : Type}, (ι → ConvertM α) → (α → Prop) → Prop}
  (judgement : TypeJudgement c @P)
include judgement

section Steps

variable {α β : Type} {x : ι → ConvertM α} {q : β → Prop}

theorem map (first : P x fun _ => True) {f : α → β} :
    P (fun i => x i >>= fun a => Pure.pure (f a)) fun _ => True :=
  judgement.bind first fun _ _ => judgement.pure trivial

theorem ofResolve (r : Except ResolveError α) : P (fun _ => ofResolve r) fun a => r = .ok a := by
  cases r with
  | error e => exact judgement.throw (by simp)
  | ok a => exact judgement.pure rfl

/-- A step that only reports on a type before it comes to a result. -/
theorem reportingType {code : DiagnosticCode} (ofTypes : code.isOfTypes) (message : String)
    (a : α) : P (fun _ => c.report code message >>= fun _ => Pure.pure a) fun _ => True :=
  judgement.bind (judgement.reportType message ofTypes) fun _ _ => judgement.pure trivial

theorem keep {f : ι → α → ConvertM (Option β)} (each : ∀ a, P (fun i => f i a) fun _ => True)
    (items : List α) : P (fun i => ConvertM.keep (f i) items) fun _ => True := by
  induction items with
  | nil => exact judgement.pure trivial
  | cons a rest ih =>
    exact judgement.bind (each a) fun b _ => judgement.map ih

theorem foldlM {f : ι → β → α → ConvertM β}
    (each : ∀ b a, q b → P (fun i => f i b a) q) (items : List α) {b : β} (start : q b) :
    P (fun i => items.foldlM (f i) b) q := by
  induction items generalizing b with
  | nil => exact judgement.pure start
  | cons a rest ih => exact judgement.bind (each b a start) fun _ known => ih known

theorem mapM {f : ι → α → ConvertM β} (each : ∀ a, P (fun i => f i a) fun _ => True)
    (items : List α) : P (fun i => items.mapM (f i)) fun _ => True := by
  induction items with
  | nil => exact judgement.pure trivial
  | cons a rest ih =>
    simp only [List.mapM_cons]
    exact judgement.bind (each a) fun b _ => judgement.map ih

end Steps

theorem literal (value : Json) : P (fun _ => c.literal value) fun _ => True := by
  unfold Converter.literal
  split
  · exact judgement.reportingType rfl ..
  · exact judgement.pure trivial

theorem intrinsic (type : Intrinsic) (ref : TypeRef) :
    P (fun _ => c.intrinsic type ref) fun _ => True := by
  cases type with
  | null => exact judgement.reportingType rfl ..
  | _ => exact judgement.pure trivial

theorem limitTo (kind : SchemaKind) (values : List Json) (owner : String) :
    P (fun _ => c.limitTo kind values owner) fun _ => True := by
  unfold Converter.limitTo
  split
  · exact judgement.pure trivial
  · exact judgement.reportingType rfl ..

theorem enumeration (decl : EnumType) (site : List Constraints) :
    P (fun _ => c.enumeration decl site) fun _ => True := by
  unfold Converter.enumeration
  split
  · exact judgement.reportingType rfl ..
  · exact judgement.map (judgement.limitTo ..)

theorem enumUnion (decl : UnionType) (variants : List (TypeRef × Resolved))
    (site : List Constraints) : P (fun _ => c.enumUnion decl variants site) fun _ => True := by
  unfold Converter.enumUnion
  split
  · exact judgement.reportingType rfl ..
  split
  · exact judgement.pure trivial
  split
  · split
    · exact judgement.pure trivial
    · exact judgement.map (judgement.limitTo ..)
  · split
    · exact judgement.reportingType rfl ..
    · exact judgement.pure trivial

variable {types : ι → TypeStep} {models : ι → ModelStep}

theorem union (decl : UnionType) {ctx : Context} (site : List Constraints)
    (below : ∀ ref, c.graph.through? (.union decl) = some ref →
      P (fun i => types i ref ctx site) fun _ => True) :
    P (fun i => c.union (types i) decl ctx site) fun _ => True := by
  refine judgement.bind (judgement.ofResolve _) fun variants resolved => ?_
  apply judgement.map
  have same := TypeGraph.nonNull_of_mapM resolved
  generalize variants.filter (fun v => !isNullVariant v.2) = chosen at same ⊢
  match chosen with
  | [] => exact judgement.reportingType rfl ..
  | [(ref, _)] => exact below ref (by simp [TypeGraph.through?, ← same])
  | first :: second :: rest => exact judgement.enumUnion ..

theorem additional (model : ModelType) {v : Visibility}
    (below : ∀ ref, model.indexer = some ref →
      P (fun i => types i ref { visibility := v } []) fun _ => True) :
    P (fun i => c.additional (types i) model v) fun _ => True := by
  unfold Converter.additional
  cases indexed : model.indexer with
  | none => exact judgement.pure trivial
  | some ref =>
    simp only
    split
    · exact judgement.pure trivial
    · exact judgement.map (below ref indexed)

theorem linked (link : PropertyLink) {ctx : Context} (site : List Constraints)
    (below : ∀ ref ctx' site', c.graph.through? (.property link) = some ref →
      ctx'.visibility = ctx.visibility → P (fun i => types i ref ctx' site') fun _ => True) :
    P (fun i => c.linked (types i) link ctx site) fun _ => True := by
  refine judgement.bind (judgement.ofResolve _) fun ⟨id, model⟩ found => ?_
  cases declared : model.properties.get? link.property with
  | none =>
    simp only [declared]
    exact judgement.throw (by simp)
  | some property =>
    simp only [declared]
    exact below _ _ _ (by simp [TypeGraph.through?, found, declared]) rfl

theorem declared (id : TypeId) (decl : Declaration) (ctx : Context) (site : List Constraints)
    (known : ∀ id site, P (fun i => models i id ctx.visibility site) fun _ => True)
    (below : ∀ ref ctx' site', c.graph.through? decl = some ref →
      ctx'.visibility = ctx.visibility → P (fun i => types i ref ctx' site') fun _ => True) :
    P (fun i => c.declared (models i) (types i) id decl ctx site) fun _ => True := by
  unfold Converter.declared
  cases decl with
  | scalar _ => exact judgement.bind (judgement.ofResolve _) fun _ _ => judgement.pure trivial
  | model model =>
    by_cases isRecord : model.isRecord
    · simp only [isRecord, if_true]
      apply judgement.map
      apply judgement.additional
      intro ref indexed
      exact below ref _ _ (by simp [TypeGraph.through?, isRecord, indexed]) rfl
    · simp only [isRecord, Bool.false_eq_true, if_false]
      exact judgement.map (known id site)
  | array decl =>
    have item := below decl.item (ctx.withCollection none) [] rfl rfl
    exact judgement.map item
  | union decl => exact judgement.union decl site fun ref through => below ref _ _ through rfl
  | enum decl => exact judgement.enumeration ..
  | property link => exact judgement.linked link site below

theorem typeStep (type : TypeRef) (ctx : Context) (site : List Constraints)
    (known : ∀ id site, P (fun i => models i id ctx.visibility site) fun _ => True)
    (below : ∀ ref ctx' site', c.graph.next? type = some ref →
      ctx'.visibility = ctx.visibility → P (fun i => types i ref ctx' site') fun _ => True) :
    P (fun i => c.typeStep (models i) (types i) type ctx site) fun _ => True := by
  refine judgement.bind (judgement.ofResolve _) fun resolved here => ?_
  cases resolved with
  | declared id decl =>
    rw [TypeGraph.next?_eq here] at below
    exact judgement.declared id decl ctx site known below
  | builtin builtin => exact judgement.pure trivial
  | intrinsic intrinsic => exact judgement.intrinsic ..
  | literal value => exact judgement.literal ..

/-- A chain of types that ends is converted before the fuel is out. -/
theorem typesWithin (v : Visibility)
    (known : ∀ id site, P (fun i => models i id v site) fun _ => True) {fuel : Nat}
    {type : TypeRef} (ends : c.graph.after fuel type = none) {ctx : Context}
    (same : ctx.visibility = v) (site : List Constraints) :
    P (fun i => c.typesWithin (models i) fuel type ctx site) fun _ => True := by
  subst same
  induction fuel generalizing type ctx site with
  | zero => simp [TypeGraph.after] at ends
  | succ fuel ih =>
    apply judgement.typeStep type ctx site known
    intro ref ctx' site' next same
    apply ih
    · simpa [TypeGraph.after, next] using ends
    · rw [same]
      exact known

section Objects

variable {v : Visibility}
  (below : ∀ type ctx site, ctx.visibility = v → P (fun i => types i type ctx site) fun _ => True)
include below

theorem property (p : EffectiveProperty) :
    P (fun i => c.propertyBy (types i) p v) fun _ => True := by
  refine judgement.bind (below _ _ _ rfl) fun schema _ => ?_
  cases schema with
  | none => exact judgement.pure trivial
  | some schema => exact judgement.pure trivial

theorem variant {p : List TypeId → Prop} {nested : ι → VariantStep} (host : TypeId)
    (property value : String) (id : TypeId) (model : ModelType) {visited : List TypeId}
    (start : p visited)
    (inner : ∀ host property visited, p visited →
      P (fun i => nested i host property v visited) fun found => p found.2) :
    P (fun i => c.variant (types i) (nested i) host property value v id model visited)
      fun found => p found.2 := by
  refine judgement.bind (judgement.ofResolve _) fun chain _ => ?_
  refine judgement.bind (judgement.keep (judgement.property below) _) fun props _ => ?_
  cases model.discriminator.filter (· ≠ property) with
  | none => exact judgement.pure start
  | some own => exact judgement.bind (inner id own visited start) fun _ found =>
      judgement.pure found

/-- One more derived model is looked at. `q` is known of them then. -/
theorem addVariant {p q : List TypeId → Prop} {nested : ι → VariantStep} (host : TypeId)
    (property : String) (state : List Variant × List TypeId) (name : String)
    (start : p state.2)
    (grow : ∀ id model, c.graph.model? id = some model → id ∉ state.2 → q (id :: state.2))
    (weaken : ∀ visited, q visited → p visited)
    (inner : ∀ host property visited, q visited →
      P (fun i => nested i host property v visited) fun found => q found.2) :
    P (fun i => c.addVariant (types i) (nested i) host property v state name)
      fun found => p found.2 := by
  refine judgement.bind (judgement.ofResolve _) fun ⟨id, model⟩ named => ?_
  by_cases old : id ∈ state.2
  · simp only [List.contains_iff_mem, old, if_true]
    exact judgement.pure start
  have new := grow id model (TypeGraph.modelNamed_ok named) old
  simp only [List.contains_iff_mem, old, if_false]
  by_cases template : model.template
  · simp only [template, if_true]
    exact judgement.pure (weaken _ new)
  simp only [template, Bool.false_eq_true, if_false]
  cases c.graph.pinnedValue? model property with
  | none => exact judgement.pure (weaken _ new)
  | some value =>
    refine judgement.bind (judgement.variant below host property value id model new inner) ?_
    exact fun found known => judgement.pure (weaken _ known)

/-- The object of a model, if its variants are judged. -/
theorem objectBy {p : List Variant × List TypeId → Prop} (id : TypeId)
    (variants : ∀ model property, c.graph.model? id = some model →
      P (fun i => c.variantsWithin (types i) (c.graph.types.size + 2) id property v [id]) p) :
    P (fun i => c.objectBy (types i) id v) fun _ => True := by
  unfold Converter.objectBy
  cases here : c.graph.model? id with
  | none => exact judgement.throw (by simp)
  | some model =>
    refine judgement.bind (judgement.ofResolve _) fun payload _ => ?_
    refine judgement.bind (judgement.keep (judgement.property below) _) fun props _ => ?_
    refine judgement.bind (judgement.additional model fun ref _ => below _ _ _ rfl)
      fun additional _ => ?_
    cases model.discriminator with
    | none => exact judgement.pure trivial
    | some property =>
      exact judgement.bind (variants model property here) fun _ _ => judgement.pure trivial

end Objects

theorem answerBy (call : Call)
    (below : ∀ type ctx site,
      P (fun i => c.typesBy (models i) type ctx site) fun _ => True)
    (known : ∀ id v site, P (fun i => models i id v site) fun _ => True) :
    P (fun i => c.answerBy (models i) call) fun _ => True := by
  cases call with
  | type type ctx site => exact judgement.map (below ..)
  | property p ctx => exact judgement.map (judgement.property (fun _ _ _ _ => below ..) p)
  | model id ctx site => exact judgement.map (known ..)

section Stuck

variable (stuck : ∀ {α : Type} {p : α → Prop},
  P (fun _ => (MonadExcept.throw ConvertError.endless : ConvertM α)) p)
include stuck

/-- Where running out of fuel is judged as well, it does not matter how much there is. -/
theorem typesWithin_of_stuck {v : Visibility}
    (known : ∀ id site, P (fun i => models i id v site) fun _ => True) (fuel : Nat)
    (type : TypeRef) {ctx : Context} (same : ctx.visibility = v) (site : List Constraints) :
    P (fun i => c.typesWithin (models i) fuel type ctx site) fun _ => True := by
  subst same
  induction fuel generalizing type ctx site with
  | zero => exact stuck
  | succ fuel ih =>
    refine judgement.typeStep type ctx site known fun ref ctx' site' _ same => ?_
    apply ih
    rw [same]
    exact known

theorem variantsWithin_of_stuck {v : Visibility}
    (below : ∀ type ctx site, ctx.visibility = v → P (fun i => types i type ctx site) fun _ => True)
    (fuel : Nat) (host : TypeId) (property : String) (visited : List TypeId) :
    P (fun i => c.variantsWithin (types i) fuel host property v visited) fun _ => True := by
  induction fuel generalizing host property visited with
  | zero => exact stuck
  | succ fuel ih =>
    unfold variantsWithin
    cases c.graph.model? host with
    | none => exact judgement.pure trivial
    | some model =>
      refine judgement.foldlM (fun state name _ => ?_) model.derived trivial
      exact judgement.addVariant (p := fun _ => True) (q := fun _ => True) below host property
        state name trivial (fun _ _ _ _ => trivial) (fun _ _ => trivial)
        fun host property visited _ => ih host property visited

theorem objectBy_of_stuck {v : Visibility}
    (known : ∀ id site, P (fun i => models i id v site) fun _ => True) (id : TypeId) :
    P (fun i => c.objectBy (c.typesBy (models i)) id v) fun _ => True := by
  have below (type : TypeRef) (ctx : Context) (site : List Constraints)
      (same : ctx.visibility = v) : P (fun i => c.typesBy (models i) type ctx site) fun _ => True :=
    judgement.typesWithin_of_stuck stuck known (c.graph.types.size + 2) type same site
  exact judgement.objectBy below id fun _ property _ =>
    judgement.variantsWithin_of_stuck stuck below ..

section Models

variable {v : Visibility} (visited : ∀ id, P (fun _ => visit id v) fun _ => True)
  (stored : ∀ slot body, P (fun _ => store slot body) fun _ => True)
include visited stored

/-- Models are judged if entering and storing their classes is. -/
theorem modelWithin_of_stuck (fuel : Nat) (id : TypeId) (site : List Constraints) :
    P (fun _ => c.modelWithin fuel id v site) fun _ => True := by
  induction fuel generalizing id site with
  | zero => exact stuck
  | succ fuel ih =>
    refine judgement.bind (visited id) fun ⟨slot, count⟩ _ => ?_
    by_cases before : 1 < count
    · simp only [before, if_true]
      exact judgement.pure trivial
    · simp only [before, if_false]
      refine judgement.bind (judgement.objectBy_of_stuck stuck ih id) fun object _ => ?_
      exact judgement.map (stored slot _)

theorem convert_of_stuck (type : TypeRef) {ctx : Context} (same : ctx.visibility = v)
    (site : List Constraints) : P (fun _ => c.convert type ctx site) fun _ => True :=
  judgement.typesWithin_of_stuck stuck (judgement.modelWithin_of_stuck stuck visited stored _) _
    type same site

end Models

theorem answerBy_of_stuck (known : ∀ id v site, P (fun i => models i id v site) fun _ => True)
    (call : Call) : P (fun i => c.answerBy (models i) call) fun _ => True := by
  refine judgement.answerBy call (fun type ctx site => ?_) known
  exact judgement.typesWithin_of_stuck stuck (known · ctx.visibility ·) _ type rfl site

end Stuck

end TypeJudgement
end WireSchema
