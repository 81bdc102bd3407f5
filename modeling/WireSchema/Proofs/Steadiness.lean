import WireSchema.Proofs.OperationLayers
import WireSchema.Resource

/-! What was reported before makes no difference to what is converted: every step comes to the same
and reports the same whatever stands in front of its reports. -/
namespace WireSchema

open ConvertM

/-- A step that only depends on the classes, and leaves the reports that were there. -/
structure Steady {α : Type} (x : Unit → ConvertM α) (p : α → Prop) : Prop where
  runs : ∀ t, ∃ result t' reports,
    (∀ ds, outcome (x ()) ⟨t, ds⟩ = (result, ⟨t', ds ++ reports⟩)) ∧ ∀ a, result = .ok a → p a

theorem Steady.bind {α β : Type} {x : Unit → ConvertM α} {f : Unit → α → ConvertM β} {p : α → Prop}
    {q : β → Prop} (first : Steady x p) (rest : ∀ a, p a → Steady (fun i => f i a) q) :
    Steady (fun i => x i >>= f i) q := by
  refine ⟨fun t => ?_⟩
  obtain ⟨result, t₁, reports, run, known⟩ := first.runs t
  cases result with
  | error e => exact ⟨.error e, t₁, reports, fun ds => by simp [outcome_bind, run], by simp⟩
  | ok a =>
    obtain ⟨result, t₂, further, run', known'⟩ := (rest a (known a rfl)).runs t₁
    exact ⟨result, t₂, reports ++ further, fun ds => by simp [outcome_bind, run, run'], known'⟩

theorem steady_throw {α : Type} {p : α → Prop} {e : ConvertError} :
    Steady (fun _ => (throw e : ConvertM α)) p :=
  ⟨fun t => ⟨.error e, t, [], fun ds => by simp [outcome_throw], by simp⟩⟩

theorem compositional_steady (c : Converter) : Compositional c Steady where
  pure {α a p} known := ⟨fun t => ⟨.ok a, t, [], fun ds => by simp [outcome_pure], by simpa⟩⟩
  throw _ := steady_throw
  report code message :=
    ⟨fun t => ⟨.ok (), t, [⟨code, message, c.target⟩], fun _ => rfl, by simp⟩⟩
  bind := Steady.bind

/-- Classes are entered and stored without a report. -/
theorem steady_of_silent {α : Type} {x : ConvertM α} (result : ClassTable → α)
    (after : ClassTable → ClassTable)
    (run : ∀ g, outcome x g = (.ok (result g.classes), { g with classes := after g.classes })) :
    Steady (fun _ => x) fun _ => True :=
  ⟨fun t => ⟨.ok (result t), after t, [], fun ds => by simp [run], by simp⟩⟩

namespace Converter

variable (c : Converter)

theorem convert_steady (type : TypeRef) (ctx : Context) (site : List Constraints) :
    Steady (fun _ => c.convert type ctx site) fun _ => True := by
  refine (compositional_steady c).convert_of_stuck steady_throw (fun id => ?_) (fun slot body => ?_)
    type rfl site
  · exact steady_of_silent
      (fun t => ((t.enter id ctx.visibility).1,
        (t.enter id ctx.visibility).2.count (t.enter id ctx.visibility).1))
      (fun t => (t.enter id ctx.visibility).2) fun _ => rfl
  · exact steady_of_silent (fun _ => ()) (·.store slot body) fun _ => rfl

end Converter

/-- A step in the conversion of operations that comes to the same and reports the same whenever it
is taken. -/
def Repeatable {α : Type} (x : OperationM α) : Prop :=
  ∃ result reports, ∀ ds, outcome x ds = (result, ds ++ reports)

namespace Repeatable

variable {α β : Type} {x : OperationM α} {f : α → OperationM β}

theorem pure (a : α) : Repeatable (pure a : OperationM α) :=
  ⟨.ok a, [], fun ds => by simp [outcome_pure]⟩

theorem bind (first : Repeatable x) (rest : ∀ a, Repeatable (f a)) : Repeatable (x >>= f) := by
  obtain ⟨result, reports, run⟩ := first
  cases result with
  | error e => exact ⟨.error e, reports, fun ds => by simp [outcome_bind, run]⟩
  | ok a =>
    obtain ⟨result, further, run'⟩ := rest a
    exact ⟨result, reports ++ further, fun ds => by simp [outcome_bind, run, run']⟩

theorem foldlM {ι : Type} {f : α → ι → OperationM α} (each : ∀ a i, Repeatable (f a i))
    (items : List ι) (a : α) : Repeatable (items.foldlM f a) := by
  induction items generalizing a with
  | nil => exact .pure a
  | cons i rest ih => exact (each a i).bind fun a => ih a

/-- A pass starts from an empty table, so what it comes to is fixed. -/
theorem asPass {x : ConvertM α} (steady : Steady (fun _ => x) fun _ => True)
    (failed : ConvertError → OperationError) : Repeatable (x.asPass failed) := by
  obtain ⟨result, t, reports, run, -⟩ := steady.runs {}
  have pass (ds : Diagnostics) : outcome (x.asPass failed) ds =
      match outcome x ⟨{}, ds⟩ with
      | (.ok a, gathered) => (.ok (a, gathered.classes), gathered.diagnostics)
      | (.error e, gathered) => (.error (failed e), gathered.diagnostics) := rfl
  cases result with
  | error e => exact ⟨.error (failed e), reports, fun ds => by rw [pass, run]⟩
  | ok a => exact ⟨.ok (a, t), reports, fun ds => by rw [pass, run]⟩

theorem yields {a : α} {ds ds' : Diagnostics} (repeatable : Repeatable x)
    (run : Yields x ds a ds') (other : Diagnostics) : ∃ other', Yields x other a other' := by
  obtain ⟨result, reports, runs⟩ := repeatable
  obtain ⟨rfl, -⟩ := Prod.mk.inj ((runs ds).symm.trans run)
  exact ⟨_, runs other⟩

theorem eq {a b : α} {ds ds' other other' : Diagnostics} (repeatable : Repeatable x)
    (run : Yields x ds a ds') (again : Yields x other b other') : a = b := by
  obtain ⟨_, run'⟩ := repeatable.yields run other
  exact Except.ok.inj (Prod.mk.inj (run'.symm.trans again)).1

end Repeatable

namespace Assembler

theorem ofOperation_repeatable (graph : TypeGraph) (operation : Operation) (operationId : String) :
    Repeatable (ofOperation graph operation operationId) := by
  refine .bind (.asPass ?_ _) fun _ => .pure _
  exact (compositional_steady _).hostParameters (Converter.convert_steady _)

variable (a : Assembler) (stage : Stage)

theorem request_repeatable : Repeatable (a.request stage) := by
  refine .bind (.asPass ?_ _) fun _ => .pure _
  exact (compositional_steady _).request steady_throw (Converter.convert_steady _) ..

theorem responses_repeatable : Repeatable (a.responses stage) := by
  refine .bind (.asPass ?_ _) fun _ => .pure _
  exact (compositional_steady _).responses steady_throw (fun _ => Converter.convert_steady ..) _

theorem assemble_repeatable : Repeatable (a.assemble stage) :=
  (a.request_repeatable stage).bind fun _ => (a.responses_repeatable stage).bind fun _ => .pure _

end Assembler
end WireSchema
