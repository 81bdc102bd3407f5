import WireSchema.Proofs.Layers

/-! What is reported about the responses of an operation. Conversions of types report as well, but
about types only, so that the reports about responses can be told from the steps that are taken with
these. -/
namespace WireSchema

open ConvertM

def DiagnosticCode.isOfResponses : DiagnosticCode → Bool
  | duplicatedSuccess2xx | duplicatedSuccess202 | duplicatedSuccess204 | duplicatedRedirect
  | missingStatusCodes | duplicateBodyTypes | unsupportedStatusCodeRange => true
  | _ => false

theorem DiagnosticCode.not_ofResponses {code : DiagnosticCode} (ofTypes : code.isOfTypes) :
    code.isOfResponses = false := by
  cases code <;> first | rfl | cases ofTypes

structure OnTypes {α : Type} (x : Unit → ConvertM α) (p : α → Prop) : Prop where
  runs : ∀ g a g', Yields (x ()) g a g' → p a ∧
    ∃ reports, g'.diagnostics = g.diagnostics ++ reports ∧ ∀ d ∈ reports, d.code.isOfTypes

theorem OnTypes.bind {α β : Type} {x : Unit → ConvertM α} {f : Unit → α → ConvertM β} {p : α → Prop}
    {q : β → Prop} (first : OnTypes x p) (rest : ∀ a, p a → OnTypes (fun i => f i a) q) :
    OnTypes (fun i => x i >>= f i) q := by
  refine ⟨fun g b g' run => ?_⟩
  obtain ⟨a, g₁, here, run⟩ := yields_bind.mp run
  obtain ⟨known, reports, grown, ofTypes⟩ := first.runs g a g₁ here
  obtain ⟨known', further, grown', ofTypes'⟩ := (rest a known).runs g₁ b g' run
  refine ⟨known', reports ++ further, by rw [grown', grown, List.append_assoc], ?_⟩
  exact List.forall_mem_append.mpr ⟨ofTypes, ofTypes'⟩

theorem onTypes_throw {α : Type} {p : α → Prop} {e : ConvertError} :
    OnTypes (fun _ => (throw e : ConvertM α)) p := ⟨fun _ _ _ run => absurd run not_yields_throw⟩

theorem typeJudgement_onTypes (c : Converter) : TypeJudgement c OnTypes where
  pure {α a p} known := by
    refine ⟨fun g b g' run => ?_⟩
    obtain ⟨rfl, rfl⟩ := yields_pure.mp run
    exact ⟨known, [], by simp, nofun⟩
  throw _ := onTypes_throw
  reportType {code} message ofTypes := by
    refine ⟨fun g u g' run => ?_⟩
    obtain rfl := (Prod.mk.inj run).2
    exact ⟨trivial, [⟨code, message, c.target⟩], rfl, by simpa using ofTypes⟩
  bind := OnTypes.bind

theorem onTypes_of_silent {α : Type} {x : ConvertM α}
    (silent : ∀ g, (outcome x g).2.diagnostics = g.diagnostics) :
    OnTypes (fun _ => x) fun _ => True := by
  refine ⟨fun g a g' run => ⟨trivial, [], ?_, nofun⟩⟩
  have same := silent g
  rw [show outcome x g = (.ok a, g') from run] at same
  rw [same, List.append_nil]

theorem Converter.convert_onTypes (c : Converter) (type : TypeRef) (ctx : Context)
    (site : List Constraints) : OnTypes (fun _ => c.convert type ctx site) fun _ => True :=
  (typeJudgement_onTypes c).convert_of_stuck onTypes_throw
    (fun _ => onTypes_of_silent fun _ => rfl) (fun _ _ => onTypes_of_silent fun _ => rfl) type rfl
    site

/-- What a step gives, and what it reports about responses. -/
structure Tells {α : Type} (x : ConvertM α) (q : α → Diagnostics → Prop) : Prop where
  told : ∀ g a g', Yields x g a g' → ∃ reports, g'.diagnostics = g.diagnostics ++ reports ∧
    q a (reports.filter (·.code.isOfResponses))

namespace Tells

variable {α β : Type} {x : ConvertM α} {f : α → ConvertM β} {p : α → Diagnostics → Prop}
  {q : β → Diagnostics → Prop}

theorem pure {a : α} (known : p a []) : Tells (pure a) p := by
  refine ⟨fun g b g' run => ?_⟩
  obtain ⟨rfl, rfl⟩ := yields_pure.mp run
  exact ⟨[], by simp, known⟩

theorem throw {e : ConvertError} : Tells (throw e) p :=
  ⟨fun _ _ _ run => absurd run not_yields_throw⟩

theorem ofExcept {r : Except ConvertError α} :
    Tells (MonadExcept.ofExcept r) fun _ said => said = [] := by
  cases r with
  | error e => exact .throw
  | ok a => exact .pure rfl

theorem report (c : Converter) {code : DiagnosticCode} (ofResponses : code.isOfResponses)
    (message : String) :
    Tells (c.report code message) fun _ said => said = [⟨code, message, c.target⟩] := by
  refine ⟨fun g u g' run => ?_⟩
  obtain rfl := (Prod.mk.inj run).2
  exact ⟨[⟨code, message, c.target⟩], rfl, by simp [ofResponses]⟩

theorem bind (first : Tells x p)
    (rest : ∀ a said, p a said → Tells (f a) fun b said' => q b (said ++ said')) :
    Tells (x >>= f) q := by
  refine ⟨fun g b g' run => ?_⟩
  obtain ⟨a, g₁, here, run⟩ := yields_bind.mp run
  obtain ⟨reports, grown, known⟩ := first.told g a g₁ here
  obtain ⟨further, grown', known'⟩ := (rest a _ known).told g₁ b g' run
  refine ⟨reports ++ further, by rw [grown', grown, List.append_assoc], ?_⟩
  rwa [List.filter_append]

theorem mono {p' : α → Diagnostics → Prop} (tells : Tells x p)
    (weaken : ∀ a said, p a said → p' a said) : Tells x p' := by
  refine ⟨fun g a g' run => ?_⟩
  obtain ⟨reports, grown, known⟩ := tells.told g a g' run
  exact ⟨reports, grown, weaken a _ known⟩

theorem guard {now : Prop} [Decidable now] {y : ConvertM Unit} {f : Unit → ConvertM β}
    {reports : Diagnostics} (first : Tells y fun _ said => said = reports)
    (rest : Tells (f ()) fun b said => q b ((if now then reports else []) ++ said)) :
    Tells (if now then y >>= f else f ()) q := by
  by_cases it : now
  · simp only [it, if_true] at rest ⊢
    refine first.bind fun _ said same => ?_
    subst same
    exact rest
  · simpa only [it, if_false, List.nil_append] using rest

/-- What is said about types is nothing about responses. -/
theorem ofTypes {p : α → Prop} (onTypes : OnTypes (fun _ => x) p) :
    Tells x fun _ said => said = [] := by
  refine ⟨fun g a g' run => ?_⟩
  obtain ⟨-, reports, grown, about⟩ := onTypes.runs g a g' run
  refine ⟨reports, grown, List.filter_eq_nil_iff.mpr fun d member => ?_⟩
  simp [DiagnosticCode.not_ofResponses (about d member)]

end Tells

end WireSchema
