import WireSchema.Proofs.Simulation
import WireSchema.Proofs.Termination

/-! Hidden properties keep their secrets. Under a visibility a pass comes to the same for all graphs
that differ in hidden property declarations only, unless these tell models apart or are referred
to. -/
namespace WireSchema

open ConvertM Converter

def Call.visibility : Call → Visibility
  | .type _ ctx _ => ctx.visibility
  | .property _ ctx => ctx.visibility
  | .model _ ctx _ => ctx.visibility

/-- Graphs that are the same but for property declarations of which nothing shows. -/
structure TypeGraph.SameShown (v : Visibility) (graph graph' : TypeGraph) : Prop where
  version : graph'.version = graph.version
  service : graph'.service = graph.service
  operations : graph'.operations = graph.operations
  types : List.Forall₂ (fun e e' => e'.1 = e.1 ∧ AgreeingDeclaration graph v e.1 e.2 e'.2)
    graph.types.entries graph'.types.entries

section Entries

variable {α β : Type} {R : α → β → Prop} {items : List α} {items' : List β}

theorem getElem?_of_forall₂ (related : List.Forall₂ R items items') (i : Nat) :
    Option.Rel R items[i]? items'[i]? := by
  induction related generalizing i with
  | nil => exact .none
  | cons here _ ih =>
    cases i with
    | zero => exact .some here
    | succ i => exact ih i

theorem findIdx?_of_forall₂ {p : α → Bool} {p' : β → Bool}
    (related : List.Forall₂ R items items') (same : ∀ a b, R a b → p' b = p a) :
    items'.findIdx? p' = items.findIdx? p := by
  induction related with
  | nil => rfl
  | cons here _ ih => rw [List.findIdx?_cons, List.findIdx?_cons, same _ _ here, ih]

end Entries

/-- A pass comes to the same if each of its conversions does. -/
theorem Converter.outcomes_congr {answer answer' : Call → ConvertM (Option Tree)}
    {calls : List Call}
    (same : ∀ call ∈ calls, ∀ g, outcome (answer' call) g = outcome (answer call) g)
    (g : Gathered) : outcomes answer' calls g = outcomes answer calls g := by
  induction calls generalizing g with
  | nil => rfl
  | cons call rest ih =>
    rw [List.forall_mem_cons] at same
    rw [outcomes, outcomes, same.1 g]
    simp only [ih same.2]

namespace TypeGraph.SameShown

variable {v : Visibility} {graph graph' : TypeGraph}

theorem agree (same : graph.SameShown v graph') : Agree v id graph graph' where
  injective := Function.injective_id
  service := same.service
  size := same.types.length_eq.symm
  entry type := getElem?_of_forall₂ same.types type.index
  place name := by
    have index : graph'.types.index? name = graph.types.index? name :=
      findIdx?_of_forall₂ same.types fun e e' related => by rw [related.1]
    rw [index]
    rfl

theorem payload_eq (same : graph.SameShown v graph') (type : TypeId) :
    graph'.payload type v = graph.payload type v := by
  have all : List.map (EffectiveProperty.renumber id) = id := by
    funext ps
    exact List.map_id ps
  have payloads := same.agree.payload_agrees type
  rw [all] at payloads
  exact (payloads.mono fun ps ps' same => same.symm).eq.symm

theorem answer_parallel (same : graph.SameShown v graph') (target : String) (call : Call)
    (under : call.visibility = v) (g : Gathered) :
    outcome (Converter.answer ⟨graph', target⟩ call) g =
      outcome (Converter.answer ⟨graph, target⟩ call) g := by
  have twins : Counterparts v id ⟨graph, target⟩ ⟨graph', target⟩ := ⟨same.agree, rfl⟩
  have inStep : InStep id (Converter.answer ⟨graph, target⟩ call)
      (Converter.answer ⟨graph', target⟩ call) := by
    cases call with
    | type type ctx site =>
      exact (twins.convert_parallel type ctx site under).andThen fun _ => .pure rfl
    | property p ctx =>
      obtain rfl : ctx.visibility = v := under
      exact (twins.propertyBy_parallel twins.convert_parallel p).andThen fun _ => .pure rfl
    | model type ctx site =>
      obtain rfl : ctx.visibility = v := under
      exact (twins.models_parallel type site).andThen fun _ => .pure rfl
  rw [InStep, Gathered.renumber_id] at inStep
  exact inStep.eq g

theorem finalize_eq (same : graph.SameShown v graph') (t : ClassTable) (stage : Stage) :
    t.finalize graph' stage = t.finalize graph stage := by
  have unchanged (t : ClassTable) : t.renumber id = t := by
    simp [ClassTable.renumber, ClassRecord.renumber]
  have named := same.agree.finalize_eq t stage
  rwa [unchanged, unchanged] at named

end TypeGraph.SameShown

namespace Converter

/-- A pass under a visibility does not depend on the details of property declarations that are
hidden under it, tell no models apart and are not referred to: it gives the same results, failures
and reports, meets the same classes, and gives them the same names and definitions. The payloads
under the visibility are the same as well, so that the properties are that it can be asked for. -/
theorem hidden_declarations_do_not_show {v : Visibility} {graph graph' : TypeGraph}
    (same : graph.SameShown v graph') (target : String) (calls : List Call)
    (under : ∀ call ∈ calls, call.visibility = v) (g : Gathered) :
    let run := outcomes (Converter.answer ⟨graph, target⟩) calls g
    let run' := outcomes (Converter.answer ⟨graph', target⟩) calls g
    run'.1 = run.1 ∧ run'.2.diagnostics = run.2.diagnostics ∧
      run'.2.classes.records = run.2.classes.records ∧
      (∀ stage, (run'.2.classes.finalize graph' stage).records =
          (run.2.classes.finalize graph stage).records ∧
        (run'.2.classes.finalize graph' stage).definitions =
          (run.2.classes.finalize graph stage).definitions) ∧
      ∀ id, graph'.payload id v = graph.payload id v := by
  have runs := outcomes_congr (fun call member g =>
    same.answer_parallel target call (under call member) g) g
  simp only [runs, same.finalize_eq, same.payload_eq, and_self, implies_true]

/-- Items, and a link to their size. Where an item is created its note is hidden, so that it has
none. -/
def items (note : TypeRef) : TypeGraph where
  version := "1"
  types := .ofEntries [
    ("Entry", .model {
      discriminator := some "kind"
      derived := ["Item"]
      properties := .ofEntries [
        ("kind", { type := .named "string" }), ("note", { type := .named "string" })] }),
    ("Item", .model {
      base := some "Entry"
      properties := .ofEntries [
        ("kind", { type := .literal (.string "item") }),
        ("note", { type := note, visibility := some [.read] }),
        ("size", { type := .named "int32" })] }),
    ("Size", .property { model := "Item", property := "size" })]

/-- The type of the note does not show where items are created, although it does where they are
read. -/
theorem note_does_not_show :
    let calls : List Call := ["Entry", "Item", "Size"].map fun name =>
      .type (.named name) { visibility := .create } []
    let reading : Call := .type (.named "Item") { visibility := .read } []
    (items (.named "string")).SameShown .create (items (.named "Note")) ∧
      (∀ call ∈ calls, call.visibility = .create) ∧
      (outcomes (Converter.answer ⟨items (.named "Note"), "Item"⟩) calls ⟨{}, []⟩).1 =
        (outcomes (Converter.answer ⟨items (.named "string"), "Item"⟩) calls ⟨{}, []⟩).1 ∧
      (outcome (Converter.answer ⟨items (.named "Note"), "Item"⟩ reading) ⟨{}, []⟩).1 =
        .error (.resolve (.unknownType "Note")) := by
  intro calls reading
  have conceals : (items (.named "string")).Conceals .create "Item" "note"
      { type := .named "string", visibility := some [.read] } := by
    refine ⟨rfl, ?_, ?_⟩
    · rintro ⟨_ | _ | _ | i⟩ model here <;> cases here <;> simp
    · rintro ⟨_ | _ | _ | i⟩ linked
      · cases linked
      · cases linked
      · have same := Declaration.property.inj (Option.some.inj linked)
        exact absurd (congrArg PropertyLink.property same) (by decide)
      · cases linked
  have same : (items (.named "string")).SameShown .create (items (.named "Note")) := by
    refine ⟨rfl, rfl, rfl, .cons ⟨rfl, .refl _⟩ (.cons ⟨rfl, .model (.intro ?_)⟩
      (.cons ⟨rfl, .property⟩ .nil))⟩
    exact .cons .same (.cons (.concealed conceals rfl) (.cons .same .nil))
  have under : ∀ call ∈ calls, call.visibility = .create := by decide
  have unseen := hidden_declarations_do_not_show same "Item" calls under ⟨{}, []⟩
  exact ⟨same, under, unseen.1, rfl⟩

end Converter
end WireSchema
