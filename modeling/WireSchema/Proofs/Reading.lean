import WireSchema.Proofs.Assembly
import WireSchema.Proofs.Steadiness

/-! Passes under one visibility. The responses of an operation are converted for reading only, so
all classes that they share are classes for reading, and their names say nothing of visibilities or
stages. -/
namespace WireSchema

open ConvertM ClassTable

def ClassTable.Under (v : Visibility) (t : ClassTable) : Prop := ∀ key ∈ t.keys, key.2 = v

namespace ClassTable

variable {t t' : ClassTable} {v : Visibility}

theorem under_empty (v : Visibility) : Under v {} := by simp [Under, keys]

theorem Under.enter {id : TypeId} {slot : Slot} (under : t.Under v)
    (entered : t.enter id v = (slot, t')) : t'.Under v := by
  intro key known
  rcases (enter_spec entered).2.1 with same | ⟨-, grown⟩
  · exact under key (same ▸ known)
  · rw [grown, List.mem_append, List.mem_singleton] at known
    rcases known with old | rfl
    · exact under key old
    · rfl

theorem Under.store (under : t.Under v) (slot : Slot) (body : Schema) :
    (t.store slot body).Under v := by
  unfold Under
  rwa [keys_store]

/-- Under one visibility a model has one class at most. -/
theorem isAmbiguous_of_under (under : t.Under v) (distinct : t.Distinct) (type : TypeId) :
    t.isAmbiguous type = false := by
  unfold isAmbiguous
  generalize shared : (t.records.filter fun r => r.isShared && r.type = type) = found
  have inside : found.Sublist t.records := shared ▸ List.filter_sublist
  have alone : (found.map fun r => (r.type, r.visibility)).Nodup :=
    List.Nodup.sublist (inside.map _) distinct
  have same : (found.map fun r => (r.type, r.visibility)) ⊆ [(type, v)] := by
    intro key member
    obtain ⟨r, here, rfl⟩ := List.mem_map.mp member
    have read : r.visibility = v := under _ (List.mem_map_of_mem (inside.subset here))
    have its : r.type = type := by
      rw [← shared, List.mem_filter] at here
      simpa using (Bool.and_eq_true_iff.mp here.2).2
    rw [read, its]
    exact List.mem_singleton_self _
  have few := alone.length_le_of_subset same
  rw [List.length_map, List.length_singleton] at few
  exact decide_eq_false (Nat.not_lt.mpr few)

theorem nameRecords_congr {wanted wanted' : ClassRecord → String} {records : List ClassRecord}
    (same : ∀ r ∈ records, wanted r = wanted' r) (used : List String) :
    nameRecords wanted used records = nameRecords wanted' used records := by
  induction records generalizing used with
  | nil => rfl
  | cons r rest ih =>
    have later := ih fun r member => same r (List.mem_cons_of_mem _ member)
    simp only [nameRecords, same r List.mem_cons_self, later]

/-- A class for reading asks for the name of its model. -/
theorem wantedName_of_read (read : t.Under .read) (distinct : t.Distinct) (graph : TypeGraph)
    (stage : Stage) {r : ClassRecord} (known : r ∈ t.records) :
    t.wantedName graph stage r = Naming.definitionBase graph r.type := by
  have its : r.visibility = .read := read _ (List.mem_map_of_mem known)
  simp [wantedName, isAmbiguous_of_under read distinct, its]

/-- Classes for reading have the same names at all stages. -/
theorem finalize_of_read (read : t.Under .read) (distinct : t.Distinct) (graph : TypeGraph)
    (stage stage' : Stage) : t.finalize graph stage = t.finalize graph stage' := by
  unfold finalize
  refine congrArg ClassTable.mk (nameRecords_congr (fun r known => ?_) [])
  rw [wantedName_of_read read distinct graph stage known,
    wantedName_of_read read distinct graph stage' known]

end ClassTable

structure StaysUnder (v : Visibility) {α : Type} (x : Unit → ConvertM α) (p : α → Prop) : Prop where
  known : ∀ g a, (outcome (x ()) g).1 = .ok a → p a
  under : ∀ g, g.classes.Under v → (outcome (x ()) g).2.classes.Under v

variable {v : Visibility}

theorem StaysUnder.bind {α β : Type} {x : Unit → ConvertM α} {f : Unit → α → ConvertM β}
    {p : α → Prop} {q : β → Prop} (first : StaysUnder v x p)
    (rest : ∀ a, p a → StaysUnder v (fun i => f i a) q) :
    StaysUnder v (fun i => x i >>= f i) q := by
  constructor
  · intro g b result
    have here := first.known g
    rw [outcome_bind] at result
    cases begun : outcome (x ()) g with | mk done g₁ => ?_
    cases done with
    | error e => simp [begun] at result
    | ok a =>
      rw [begun] at here result
      exact (rest a (here a rfl)).known g₁ b result
  · intro g before
    have here := first.known g
    have between := first.under g before
    rw [outcome_bind]
    cases begun : outcome (x ()) g with | mk done g₁ => ?_
    rw [begun] at here between
    cases done with
    | error e => exact between
    | ok a => exact (rest a (here a rfl)).under g₁ between

theorem staysUnder_throw {α : Type} {p : α → Prop} {e : ConvertError} :
    StaysUnder v (fun _ => (throw e : ConvertM α)) p :=
  ⟨nofun, fun _ => id⟩

theorem compositional_staysUnder (c : Converter) (v : Visibility) :
    Compositional c (StaysUnder v) where
  pure known := ⟨fun _ _ same => Except.ok.inj same ▸ known, fun _ => id⟩
  throw _ := staysUnder_throw
  report _ _ := ⟨fun _ _ _ => trivial, fun _ => id⟩
  bind := StaysUnder.bind

namespace Converter

variable (c : Converter)

theorem convert_staysUnder (type : TypeRef) (ctx : Context) (same : ctx.visibility = v)
    (site : List Constraints) : StaysUnder v (fun _ => c.convert type ctx site) fun _ => True := by
  refine (compositional_staysUnder c v).convert_of_stuck staysUnder_throw (fun id => ?_)
    (fun slot body => ?_) type same site
  · exact ⟨fun _ _ _ => trivial, fun g before => before.enter rfl⟩
  · exact ⟨fun _ _ _ => trivial, fun g before => before.store slot body⟩

theorem responses_staysUnder (operation : Operation) :
    StaysUnder .read (fun _ => c.responses operation) fun _ => True :=
  (compositional_staysUnder c .read).responses staysUnder_throw
    (fun type => c.convert_staysUnder type { visibility := .read } rfl []) operation

/-- A pass over responses has one class for reading for each model that it meets. -/
theorem responses_read {operation : Operation} {ds ds' : Diagnostics} {responses : List Response}
    {t : ClassTable} (run : Yields (c.responses operation) ⟨{}, ds⟩ responses ⟨t, ds'⟩) :
    t.Under .read ∧ t.Distinct := by
  have read := (c.responses_staysUnder operation).under ⟨{}, ds⟩ (under_empty .read)
  rw [show outcome (c.responses operation) ⟨{}, ds⟩ = (.ok responses, ⟨t, ds'⟩) from run] at read
  obtain ⟨ms, fills, -⟩ := (responses_covers operation).fills _ _ _ run
  exact ⟨read, fills.accounts.distinct distinct_empty⟩

theorem finalize_responses {operation : Operation} {ds ds' : Diagnostics}
    {responses : List Response} {t : ClassTable}
    (run : Yields (c.responses operation) ⟨{}, ds⟩ responses ⟨t, ds'⟩) (stage stage' : Stage) :
    t.finalize c.graph stage = t.finalize c.graph stage' := by
  obtain ⟨read, distinct⟩ := c.responses_read run
  exact finalize_of_read read distinct c.graph stage stage'

end Converter

namespace Assembler

variable {a : Assembler} {stage stage' : Stage} {schema schema' : OperationSchema}
  {ds ds' ds₁ ds₁' : Diagnostics}

theorem responses_of_stage {found : List Response × OrderedMap String Schema}
    (run : Yields (a.responses stage) ds found ds') (stage' : Stage) :
    Yields (a.responses stage') ds found ds' := by
  obtain ⟨⟨responses, t⟩, _, pass, named⟩ := yields_bind.mp run
  have built := yields_asPass.mp pass
  refine yields_bind.mpr ⟨(responses, t), _, yields_asPass.mpr built, ?_⟩
  have same : t.finalize a.graph stage = t.finalize a.graph stage' :=
    a.converter.finalize_responses built stage stage'
  simp only at named ⊢
  rwa [← same]

theorem responses_of_assembled (run : Yields (a.assemble stage) ds schema ds') :
    ∃ ds₁ ds₂, Yields (a.responses stage) ds₁ (schema.responses, schema.definitions.responses)
      ds₂ := by
  obtain ⟨_, _, -, rest⟩ := yields_bind.mp run
  obtain ⟨_, _, responded, eq⟩ := yields_bind.mp rest
  obtain ⟨rfl, -⟩ := yields_pure.mp eq
  exact ⟨_, _, responded⟩

/-- An operation that is assembled for two stages has the same responses at both, and defines the
same classes beside them in the same order. -/
theorem responses_do_not_depend_on_stage (one : Yields (a.assemble stage) ds schema ds')
    (other : Yields (a.assemble stage') ds₁ schema' ds₁') :
    schema.responses = schema'.responses ∧
      schema.definitions.responses = schema'.definitions.responses := by
  obtain ⟨_, _, here⟩ := responses_of_assembled one
  obtain ⟨_, _, there⟩ := responses_of_assembled other
  have same := (a.responses_repeatable stage').eq (responses_of_stage here stage') there
  exact Prod.mk.inj same

def putNode : Operation where
  name := "put"
  verb := .put
  path := "/nodes"
  body := some { type := .named "Node" }
  responses := [{ status := some (.code 200), type := some (.named "Node") }]

def putter : Assembler where
  graph := Converter.nodes.graph
  operation := putNode
  operationId := "put"
  host := []

/-- The class of nodes has a name of its own in the request of each stage, and one name in the
responses of both. -/
theorem put_node_responds_alike :
    Yields (ofOperation Converter.nodes.graph putNode "put") [] putter [] ∧
    ∃ created updated, Yields (putter.assemble .create) [] created [] ∧
      Yields (putter.assemble .update) [] updated [] ∧
      created.definitions.request.keys = ["Node_create"] ∧
      updated.definitions.request.keys = ["Node_update"] ∧
      created.definitions.responses.keys = ["Node"] ∧
      created.responses = updated.responses ∧
      created.definitions.responses = updated.definitions.responses := by
  refine ⟨rfl, ?_⟩
  obtain ⟨created, one, request, responses⟩ : ∃ schema,
      Yields (putter.assemble .create) [] schema [] ∧
        schema.definitions.request.keys = ["Node_create"] ∧
        schema.definitions.responses.keys = ["Node"] :=
    ⟨_, rfl, by decide +kernel, by decide +kernel⟩
  obtain ⟨updated, other, request'⟩ : ∃ schema,
      Yields (putter.assemble .update) [] schema [] ∧
        schema.definitions.request.keys = ["Node_update"] :=
    ⟨_, rfl, by decide +kernel⟩
  exact ⟨created, updated, one, other, request, request', responses,
    responses_do_not_depend_on_stage one other⟩

end Assembler
end WireSchema
