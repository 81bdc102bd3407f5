import WireSchema.Proofs.Layers
import WireSchema.Request
import WireSchema.Response

/-! The layers of an operation above its types: the parameters of the host, the request and the
responses. A judgement that is known of the conversion of types is known of all three. -/
namespace WireSchema.Compositional

open ConvertM Converter

variable {c : Converter} {ι : Type} {P : ∀ {α : Type}, (ι → ConvertM α) → (α → Prop) → Prop}
  (judgement : Compositional c @P)
  (stuck : ∀ {α : Type} {p : α → Prop},
    P (fun _ => (MonadExcept.throw ConvertError.endless : ConvertM α)) p)

include judgement

section Steps

variable {α β : Type} {p : β → Prop}

theorem forIn {step : α → ConvertM (ForInStep PUnit)}
    (each : ∀ a, P (fun _ => step a) fun _ => True) (items : List α) :
    P (fun _ => ForIn.forIn items PUnit.unit fun a _ => step a) fun _ => True := by
  induction items with
  | nil => exact judgement.pure trivial
  | cons a rest ih =>
    simp only [List.forIn_cons]
    refine judgement.bind (each a) fun next _ => ?_
    cases next with
    | done => exact judgement.pure trivial
    | yield => exact ih

theorem reporting (code : DiagnosticCode) (message : String) (a : α) :
    P (fun _ => c.report code message >>= fun _ => pure a) fun _ => True :=
  judgement.bind (judgement.report code message) fun _ _ => judgement.pure trivial

theorem guard {q : Prop} [Decidable q] {y : ConvertM Unit} {f : Unit → ConvertM β}
    (first : P (fun _ => y) fun _ => True) (rest : P (fun _ => f ()) p) :
    P (fun _ => if q then y >>= f else f ()) p := by
  by_cases now : q
  · simp only [now, if_true]
    exact judgement.bind first fun _ _ => rest
  · simp only [now, if_false]
    exact rest

include stuck

theorem throw_of_stuck {e : ConvertError} : P (fun _ => (MonadExcept.throw e : ConvertM β)) p := by
  by_cases endless : e = .endless
  · subst endless
    exact stuck
  · exact judgement.throw endless

theorem ofExcept_of_stuck (r : Except ConvertError β) :
    P (fun _ => (MonadExcept.ofExcept r : ConvertM β)) fun _ => True := by
  cases r with
  | error e => exact judgement.throw_of_stuck stuck
  | ok a => exact judgement.pure trivial

end Steps

section Requests

variable (below : ∀ type ctx site, P (fun _ => c.convert type ctx site) fun _ => True)
include below

theorem hostParameter (name : String) (decl : HostParameter) :
    P (fun _ => c.hostParameter name decl) fun _ => True := by
  refine judgement.bind (below ..) fun s _ => ?_
  cases s <;> exact judgement.pure trivial

theorem hostParameters : P (fun _ => c.hostParameters) fun _ => True := by
  unfold Converter.hostParameters
  cases c.graph.service.server with
  | none => exact judgement.pure trivial
  | some server =>
    refine judgement.bind (judgement.forIn (fun name => ?_) server.placeholders) fun _ _ => ?_
    · split
      · exact judgement.reporting ..
      · exact judgement.pure trivial
    · exact judgement.keep (fun e : String × HostParameter => judgement.hostParameter below e.1 e.2)
        server.parameters.entries

include stuck

theorem parameter (p : Parameter) : P (fun _ => c.parameter p) fun _ => True := by
  refine judgement.bind (judgement.ofResolve _) fun resolved _ => ?_
  split
  · exact judgement.pure trivial
  · refine judgement.bind (below ..) fun s _ => ?_
    cases s with
    | none =>
      simp only
      split
      · exact judgement.throw_of_stuck stuck
      · exact judgement.pure trivial
    | some s => exact judgement.pure trivial

theorem addParameter (r : Arguments × Arguments × Headers) (p : Parameter) :
    P (fun _ => c.addParameter r p) fun _ => True := by
  obtain ⟨path, query, header⟩ := r
  unfold Converter.addParameter
  simp only
  split
  · exact judgement.pure trivial
  split
  · exact judgement.pure trivial
  · refine judgement.bind (judgement.parameter stuck below p) fun s _ => ?_
    cases s with
    | none => exact judgement.pure trivial
    | some s => cases p.location <;> exact judgement.pure trivial

theorem requestBody (decl : Option BodyDecl) (stage : Stage) :
    P (fun _ => c.requestBody decl stage) fun _ => True := by
  unfold Converter.requestBody
  cases decl with
  | none => exact judgement.pure trivial
  | some body =>
    refine judgement.bind (judgement.ofExcept_of_stuck stuck _) fun _ _ => ?_
    refine judgement.guard (judgement.throw_of_stuck stuck) ?_
    refine judgement.bind (below ..) fun s _ => ?_
    cases s with
    | none =>
      simp only
      split
      · exact judgement.pure trivial
      · exact judgement.throw_of_stuck stuck
    | some s => exact judgement.pure trivial

theorem request (host : List NamedSchema) (operation : Operation) (stage : Stage) :
    P (fun _ => c.request host operation stage) fun _ => True := by
  have arguments : P (fun _ => operation.parameters.foldlM c.addParameter
      (({ params := host } : Arguments), {}, {})) fun _ => True :=
    judgement.foldlM (fun r p _ => judgement.addParameter stuck below r p) operation.parameters
      trivial
  exact judgement.bind arguments fun _ _ =>
    judgement.map (judgement.requestBody stuck below operation.body stage)

end Requests

section Responses

theorem placeSuccess (b : Buckets) (code : Nat) (response : Response) (type : Option TypeRef) :
    P (fun _ => c.placeSuccess b code response type) fun _ => True := by
  unfold Converter.placeSuccess
  split
  · exact judgement.pure trivial
  split
  · exact judgement.pure trivial
  · exact judgement.reporting ..

theorem keepFirst (first : Option Response) (response : Response) (code : DiagnosticCode) :
    P (fun _ => c.keepFirst first response code) fun _ => True := by
  unfold Converter.keepFirst
  split
  · exact judgement.reporting ..
  · exact judgement.pure trivial

theorem place (b : Buckets) (status : StatusClass) (response : Response) (type : Option TypeRef) :
    P (fun _ => c.place b status response type) fun _ => True := by
  cases status with
  | success code => exact judgement.placeSuccess b code response type
  | error code => exact judgement.pure trivial
  | _ => exact judgement.map (judgement.keepFirst ..)

variable (below : ∀ type, P (fun _ => c.convert type { visibility := .read } []) fun _ => True)
include stuck below

theorem responseBody (b : Buckets) (status : StatusClass) (decl : ResponseDecl) (text : String) :
    P (fun _ => c.responseBody b status decl text) fun _ => True := by
  unfold Converter.responseBody
  split
  · exact judgement.ofExcept_of_stuck stuck _
  split
  · exact judgement.pure trivial
  split
  · exact judgement.pure trivial
  · exact below _

theorem addClassified (b : Buckets) (seen : SeenTypes) (decl : ResponseDecl) (text : String)
    (status : StatusClass) :
    P (fun _ => c.addClassified b seen decl text status) fun _ => True := by
  unfold Converter.addClassified
  refine judgement.guard (judgement.report ..) ?_
  refine judgement.bind (judgement.ofExcept_of_stuck stuck _) fun _ _ => ?_
  refine judgement.guard (judgement.throw_of_stuck stuck) ?_
  refine judgement.bind (judgement.responseBody stuck below b status decl text) fun s _ => ?_
  exact judgement.map (judgement.place ..)

theorem addResponse (state : Buckets × SeenTypes) (decl : ResponseDecl) :
    P (fun _ => c.addResponse state decl) fun _ => True := by
  unfold Converter.addResponse
  split
  · exact judgement.reporting ..
  split
  · exact judgement.reporting ..
  · exact judgement.addClassified stuck below ..

/-- Response bodies are converted for reading only. -/
theorem responses (operation : Operation) :
    P (fun _ => c.responses operation) fun _ => True :=
  judgement.map (judgement.foldlM (fun state decl _ => judgement.addResponse stuck below state decl)
    operation.responses trivial)

end Responses
end WireSchema.Compositional
