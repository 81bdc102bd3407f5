import WireSchema.Proofs.Secrets
import WireSchema.Proofs.Layers

/-! Whether a type has a form on the wire. A conversion that gives nothing has met no model on its
way, so that it would give nothing in any other pass either: what has been gathered before decides
on references, but not on whether there is a schema at all. -/
namespace WireSchema

open ConvertM Converter

/-- A step that comes to the same from everywhere and does nothing but report. -/
structure OnlyReports {α : Type} (x : Unit → ConvertM α) (p : α → Prop) : Prop where
  runs : ∃ result reports, (∀ g, outcome (x ()) g =
    (result, { g with diagnostics := g.diagnostics ++ reports })) ∧ ∀ a, result = .ok a → p a

theorem OnlyReports.bind {α β : Type} {x : Unit → ConvertM α} {f : Unit → α → ConvertM β}
    {p : α → Prop} {q : β → Prop} (first : OnlyReports x p)
    (rest : ∀ a, p a → OnlyReports (fun i => f i a) q) : OnlyReports (fun i => x i >>= f i) q := by
  obtain ⟨result, reports, run, known⟩ := first.runs
  cases result with
  | error e => exact ⟨.error e, reports, fun g => by simp [outcome_bind, run], nofun⟩
  | ok a =>
    obtain ⟨result, further, run', known'⟩ := (rest a (known a rfl)).runs
    exact ⟨result, reports ++ further, fun g => by simp [outcome_bind, run, run'], known'⟩

theorem compositional_onlyReports (c : Converter) : Compositional c OnlyReports where
  pure {α a p} known := ⟨.ok a, [], fun g => by simp [outcome_pure], by simpa⟩
  throw {α e p} _ := ⟨.error e, [], fun g => by simp [outcome_throw], nofun⟩
  report code message := ⟨.ok (), [⟨code, message, c.target⟩], fun _ => rfl, fun _ _ => trivial⟩
  bind := OnlyReports.bind

section Nothing

variable {c : Converter} {models : ModelStep} {types : TypeStep} {fuel : Nat} {type : TypeRef}
  {ctx : Context} {site : List Constraints} {g g' : Gathered} {a : Option Schema}

/-- A declaration that gives nothing has no schema of its own: it goes on with another type, which
gives nothing, or it only reports. -/
theorem declared_onlyReports {id : TypeId} {decl : Declaration}
    (here : c.graph.resolve type = .ok (.declared id decl))
    (below : ∀ ref ctx' site' g, Yields (types ref ctx' site') g none g' →
      OnlyReports (fun _ => types ref ctx' site') fun _ => True)
    (run : Yields (c.declared models types id decl ctx site) g none g') :
    OnlyReports (fun _ => c.declared models types id decl ctx site) fun _ => True := by
  have judgement := (compositional_onlyReports c).toTypeJudgement
  cases decl with
  | scalar decl =>
    obtain ⟨chain, g₁, -, run⟩ := yields_bind.mp run
    simp at run
  | model model =>
    simp only [declared] at run
    split at run
    · obtain ⟨additional, g₁, -, run⟩ := yields_bind.mp run
      simp at run
    · obtain ⟨schema, g₁, -, run⟩ := yields_bind.mp run
      simp at run
  | array decl =>
    obtain ⟨item, g₁, -, run⟩ := yields_bind.mp run
    simp at run
  | enum decl => exact judgement.enumeration decl site
  | union decl =>
    refine judgement.union decl site fun ref through => ?_
    obtain ⟨variants, schema, chosen, -, one, same⟩ := oneOf_of_union run
    obtain rfl := Option.map_eq_none_iff.mp same.symm
    have alone : decl.variants.filter (!c.graph.isNull ·) = [ref] := by
      simp only [TypeGraph.through?] at through
      split at through <;> simp_all
    rw [alone] at chosen
    obtain ⟨⟨ref, r⟩, rfl, rfl⟩ := List.map_eq_singleton_iff.mp chosen
    exact below ref ctx site g (by simpa [oneOf] using one)
  | property link =>
    obtain ⟨⟨owner, model⟩, g₁, named, run⟩ := yields_bind.mp run
    obtain ⟨resolved, rfl⟩ := yields_ofResolve.mp named
    refine judgement.bind (judgement.ofResolve _) fun found same => ?_
    obtain rfl := Except.ok.inj (resolved.symm.trans same)
    cases known : model.properties.get? link.property with
    | none => simp [known] at run
    | some property =>
      simp only [known] at run ⊢
      exact below _ _ _ _ run

/-- A type that gives nothing somewhere gives nothing everywhere. -/
theorem typesWithin_onlyReports (run : Yields (c.typesWithin models fuel type ctx site) g none g') :
    OnlyReports (fun _ => c.typesWithin models fuel type ctx site) fun _ => True := by
  have judgement := (compositional_onlyReports c).toTypeJudgement
  induction fuel generalizing type ctx site g with
  | zero => simp [typesWithin] at run
  | succ fuel ih =>
    obtain ⟨resolved, g₁, found, run⟩ := yields_bind.mp run
    obtain ⟨here, rfl⟩ := yields_ofResolve.mp found
    refine judgement.bind (judgement.ofResolve _) fun there same => ?_
    obtain rfl := Except.ok.inj (here.symm.trans same)
    cases resolved with
    | literal value => exact judgement.literal value
    | builtin builtin => simp at run
    | intrinsic intrinsic => exact judgement.intrinsic ..
    | declared id decl => exact declared_onlyReports here (fun _ _ _ _ run => ih run) run

end Nothing

namespace Converter

variable {c : Converter} {type : TypeRef} {ctx : Context} {site : List Constraints}
  {g g' : Gathered} {a : Option Schema}

def lacksForm (c : Converter) (type : TypeRef) (ctx : Context) (site : List Constraints) : Bool :=
  match (outcome (c.convert type ctx site) {}).1 with
  | .ok none => true
  | _ => false

/-- A conversion that gives nothing comes to the same everywhere, as if it were made alone. -/
theorem always_of_none (run : Yields (c.convert type ctx site) g none g') :
    Always (c.convert type ctx site) none (outcome (c.convert type ctx site) {}).2.diagnostics := by
  obtain ⟨result, reports, runs, -⟩ := (typesWithin_onlyReports run).runs
  obtain ⟨rfl, -⟩ := Prod.mk.inj ((runs g).symm.trans run)
  have alone : (outcome (c.convert type ctx site) {}).2.diagnostics = reports :=
    congrArg (·.2.diagnostics) (runs {})
  rw [alone]
  exact runs

/-- Where a conversion succeeds, it gives a schema exactly if the type has a form alone. -/
theorem lacksForm_of_yields (run : Yields (c.convert type ctx site) g a g') :
    c.lacksForm type ctx site = a.isNone := by
  cases a with
  | none =>
    obtain ⟨_, alone⟩ : ∃ after, outcome (c.convert type ctx site) {} = (.ok none, after) :=
      ⟨_, always_of_none run {}⟩
    simp [lacksForm, alone]
  | some s =>
    rw [Option.isNone_some, ← Bool.not_eq_true]
    intro lacks
    unfold lacksForm at lacks
    split at lacks
    · rename_i nothing
      have alone : Yields (c.convert type ctx site) {} none
          (outcome (c.convert type ctx site) {}).2 := Prod.ext nothing rfl
      cases ((always_of_none alone).unique run).1
    · cases lacks

end Converter
end WireSchema
