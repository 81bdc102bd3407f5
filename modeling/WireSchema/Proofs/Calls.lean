import WireSchema.Proofs.Filling

/-! Passes over a graph: any conversions, one after the other, on one class table. -/
namespace WireSchema

open ConvertM

inductive Call where
  | type (type : TypeRef) (ctx : Context) (site : List Constraints)
  | property (p : EffectiveProperty) (ctx : Context)
  | model (id : TypeId) (ctx : Context) (site : List Constraints)

inductive Tree where
  | plain (schema : Schema)
  | named (schema : NamedSchema)

namespace Tree

def mentions : Tree → List Mention
  | plain schema => schema.mentions
  | named schema => schema.mentions

def resolve (names : Slot → Option String) : Tree → Tree
  | plain schema => plain (schema.resolve names)
  | named schema => named (schema.resolve names)

end Tree

/-- The mentions in the trees that a pass has given. -/
def treeMentions (trees : List (Option Tree)) : List Mention :=
  trees.flatMap fun tree => tree.toList.flatMap Tree.mentions

namespace Converter

def answerBy (c : Converter) (models : ModelStep) : Call → ConvertM (Option Tree)
  | .type type ctx site => do return (← c.typesBy models type ctx site).map .plain
  | .property p ctx => do
    return (← c.propertyBy (c.typesBy models) p ctx.visibility).map .named
  | .model id ctx site => do return some (.plain (← models id ctx.visibility site))

/-- The conversions of a pass. -/
def answer (c : Converter) : Call → ConvertM (Option Tree)
  | .type type ctx site => do return (← c.convert type ctx site).map .plain
  | .property p ctx => do return (← c.property p ctx).map .named
  | .model id ctx site => do return some (.plain (← c.model id ctx site))

theorem answer_eq (c : Converter) : c.answer = c.answerBy c.models := by
  funext call
  cases call <;> rfl

/-- A whole pass. It ends at the first conversion that fails. -/
def answers (c : Converter) (calls : List Call) : ConvertM (List (Option Tree)) :=
  calls.mapM c.answer

variable {c : Converter}

theorem answer_traces (call : Call) :
    Traces c [] (c.answer call) fun tree => tree.toList.flatMap Tree.mentions := by
  cases call with
  | type type ctx site =>
    refine (convert_traces ..).bind fun s => .pure ?_
    cases s <;> simp [itemMentions, Tree.mentions]
  | property p ctx =>
    refine (propertyBy_traces convert_traces ..).bind fun s => .pure ?_
    cases s <;> simp [Tree.mentions]
  | model id ctx site => exact (models_trace ..).bind fun s => .pure (by simp [Tree.mentions])

theorem answers_trace (calls : List Call) : Traces c [] (c.answers calls) treeMentions := by
  unfold answers
  induction calls with
  | nil => exact .pure rfl
  | cons call rest ih =>
    rw [List.mapM_cons]
    exact (answer_traces call).bind fun tree => ih.frame.bind fun trees => .pure (by
      simp [treeMentions])

theorem fills_of_answers {calls : List Call} {trees : List (Option Tree)} {g g' : Gathered}
    (run : Yields (c.answers calls) g trees g') :
    Fills c g.classes (treeMentions trees) g'.classes := by
  obtain ⟨ms, same, fills⟩ := (answers_trace calls).fills g trees g' run
  exact fills.reorder same.symm

/-- A model whose only property is of its own type. -/
def nodes : Converter where
  target := "Node"
  graph := {
    version := "1"
    types := .ofEntries [("Node", .model {
      properties := .ofEntries [("next", { type := .named "Node", optional := true })] })] }

/-- The model read twice: the first object refers to itself, and what comes after to the first. -/
def nodeCalls : List Call :=
  let node := .type (.named "Node") { visibility := .read } []
  [node, node]

def neverCall : Call := .type (.named "never") { visibility := .read } []

end Converter
end WireSchema
