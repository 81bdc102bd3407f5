import WireSchema.Proofs.Filling
import WireSchema.Proofs.Serialization

/-! The pass over the responses of an operation. A response may be dropped for another one, so what
is left of them mentions no more than the pass has built, except for the formats of errors. -/
namespace WireSchema

open ConvertM

/-- A reference to the error format that some model has. Error formats are defined elsewhere. -/
def Mention.IsErrorFormat (graph : TypeGraph) (m : Mention) : Prop :=
  ∃ id name, ErrorBody.format? graph id = .ok (some name) ∧ m = .reference (.external name)

/-- A step that may drop what was built before, and what it builds itself. -/
structure Covers {α : Type} (c : Converter) (before : List Mention) (x : ConvertM α)
    (after : α → List Mention) : Prop where
  fills : ∀ g a g', Yields x g a g' → ∃ ms, Fills c g.classes ms g'.classes ∧
    ∀ m ∈ after a, m ∈ before ∨ m ∈ ms ∨ m.IsErrorFormat c.graph

namespace Covers

variable {α β : Type} {c : Converter} {before : List Mention} {x : ConvertM α}
  {f : α → ConvertM β} {between : α → List Mention} {after : β → List Mention}

theorem ofTraces (traces : Traces c before x between) : Covers c before x between := by
  refine ⟨fun g a g' run => ?_⟩
  obtain ⟨ms, same, fills⟩ := traces.fills g a g' run
  refine ⟨ms, fills, fun m member => ?_⟩
  rcases List.mem_append.mp (same.mem_iff.mp member) with old | new
  · exact .inl old
  · exact .inr (.inl new)

theorem ofReports (reports : Reports x)
    (kept : ∀ g a g', Yields x g a g' → ∀ m ∈ between a, m ∈ before ∨ m.IsErrorFormat c.graph) :
    Covers c before x between := by
  refine ⟨fun g a g' run => ⟨[], (reports.yields run).1 ▸ .nothing, fun m member => ?_⟩⟩
  rcases kept g a g' run m member with old | format
  · exact .inl old
  · exact .inr (.inr format)

theorem pure {a : α} (kept : between a ⊆ before) : Covers c before (pure a) between :=
  .ofReports (.pure a) fun g b g' run m member => by
    obtain ⟨rfl, -⟩ := yields_pure.mp run
    exact .inl (kept member)

theorem bind (first : Covers c before x between) (rest : ∀ a, Covers c (between a) (f a) after) :
    Covers c before (x >>= f) after := by
  refine ⟨fun g b g' run => ?_⟩
  obtain ⟨a, g₁, firstRun, restRun⟩ := yields_bind.mp run
  obtain ⟨ms, fills, kept⟩ := first.fills g a g₁ firstRun
  obtain ⟨ms', fills', kept'⟩ := (rest a).fills g₁ b g' restRun
  refine ⟨ms ++ ms', fills.append fills', fun m member => ?_⟩
  rcases kept' m member with old | new | format
  · rcases kept m old with older | new | format
    · exact .inl older
    · exact .inr (.inl (List.mem_append_left _ new))
    · exact .inr (.inr format)
  · exact .inr (.inl (List.mem_append_right _ new))
  · exact .inr (.inr format)

theorem foldlM {f : β → α → ConvertM β} (each : ∀ b a, Covers c (after b) (f b a) after)
    (items : List α) (b : β) : Covers c (after b) (items.foldlM f b) after := by
  induction items generalizing b with
  | nil => exact .pure fun _ => id
  | cons a rest ih => exact (each b a).bind fun b' => ih b'

end Covers

def Buckets.mentions (b : Buckets) : List Mention := b.ordered.flatMap Response.mentions

theorem Buckets.mem_mentions {b : Buckets} {m : Mention} : m ∈ b.mentions ↔
    (∃ s, b.success = some s ∧ m ∈ s.1.mentions) ∨ (∃ r, b.accepted = some r ∧ m ∈ r.mentions) ∨
      (∃ r, b.noContent = some r ∧ m ∈ r.mentions) ∨
      (∃ r, b.redirect = some r ∧ m ∈ r.mentions) ∨ ∃ r ∈ b.errors, m ∈ r.mentions := by
  simp [mentions, ordered]

/-- Other codes make no difference to what a response mentions. -/
theorem Response.mentions_statusCodes (r : Response) (codes : Option (List Nat)) :
    Response.mentions { r with statusCodes := codes } = r.mentions := rfl

def ResponseDecl.outcome? (decl : ResponseDecl) : Option StatusClass :=
  decl.status.bind StatusClass.ofStatus?

namespace Converter

variable {c : Converter} {b b' : Buckets} {decl : ResponseDecl} {g g' : Gathered}

theorem format_of_errorBody {graph : TypeGraph} {type : Option TypeRef} {status : String}
    {s : Schema} (found : ErrorBody.schema? graph type status = .ok (some s)) :
    ∃ id name, ErrorBody.format? graph id = .ok (some name) ∧
      s = .ofKind (.reference (.external name)) := by
  unfold ErrorBody.schema? at found
  split at found
  · cases found
  split at found
  · cases found
  · cases found
  · rename_i id _ _
    split at found
    · cases found
    · rename_i name format
      cases found
      exact ⟨id, name, format, rfl⟩
    · cases found
  · cases found

theorem responseBody_covers (b : Buckets) (status : StatusClass) (decl : ResponseDecl)
    (text : String) : Covers c [] (c.responseBody b status decl text) itemMentions := by
  unfold responseBody
  split
  · refine .ofReports ?_ fun g s g' run m member => .inr ?_
    · exact .ofExcept _
    · obtain ⟨found, -⟩ := yields_ofExcept.mp run
      cases s with
      | none => cases member
      | some s =>
        obtain ⟨id, name, format, rfl⟩ := format_of_errorBody found
        exact ⟨id, name, format, by simpa [itemMentions, SchemaKind.mentions] using member⟩
  split
  · exact .pure (by simp [itemMentions])
  split
  · exact .pure (by simp [itemMentions])
  · exact .ofTraces (convert_traces ..)

theorem reports_keepFirst (first : Option Response) (response : Response) (code : DiagnosticCode) :
    Reports (c.keepFirst first response code) := by
  unfold keepFirst
  split
  · exact .bind (.report ..) fun _ => .pure _
  · exact .pure _

/-- The response that is kept is one of the two. -/
theorem keepFirst_kept {first : Option Response} {response : Response} {code : DiagnosticCode}
    {g g' : Gathered} {kept : Option Response}
    (run : Yields (c.keepFirst first response code) g kept g') :
    kept = first ∨ kept = some response := by
  unfold keepFirst at run
  split at run
  · obtain ⟨_, _, _, run⟩ := yields_bind.mp run
    exact .inl (yields_pure.mp run).1.symm
  · exact .inr (yields_pure.mp run).1.symm

theorem reports_place (b : Buckets) (status : StatusClass) (response : Response)
    (type : Option TypeRef) : Reports (c.place b status response type) := by
  unfold place
  split
  · unfold placeSuccess
    split
    · exact .pure _
    · split
      · exact .pure _
      · exact .bind (.report ..) fun _ => .pure _
  · exact .bind (reports_keepFirst ..) fun _ => .pure _
  · exact .bind (reports_keepFirst ..) fun _ => .pure _
  · exact .bind (reports_keepFirst ..) fun _ => .pure _
  · exact .pure _

/-- A success is the first one, or it joins one of the same type, or its body takes the place of one
of another type. -/
theorem placeSuccess_cases {code : Nat} {response : Response} {type : Option TypeRef}
    (run : Yields (c.placeSuccess b code response type) g b' g') :
    (b.success = none ∧
      b' = { b with success := some ({ response with statusCodes := some [code] }, type) }) ∨
    ∃ existing known, b.success = some (existing, known) ∧
      (sameType known type ∧
          b' = { b with success := some (Buckets.addCode existing code, known) } ∨
        ¬ sameType known type ∧ b' = { b with
          success := some (Buckets.addCode
            { existing with body := response.body, headers := response.headers } code,
            type) }) := by
  unfold placeSuccess at run
  split at run
  · obtain ⟨rfl, -⟩ := yields_pure.mp run
    exact .inl ⟨‹_›, rfl⟩
  · refine .inr ⟨_, _, ‹_›, ?_⟩
    split at run
    · obtain ⟨rfl, -⟩ := yields_pure.mp run
      exact .inl ⟨‹_›, rfl⟩
    · obtain ⟨_, _, _, run⟩ := yields_bind.mp run
      obtain ⟨rfl, -⟩ := yields_pure.mp run
      exact .inr ⟨‹_›, rfl⟩

/-- Placing a response adds no mentions but its own. -/
theorem mem_mentions_of_place {status : StatusClass} {response : Response} {type : Option TypeRef}
    {m : Mention} (run : Yields (c.place b status response type) g b' g')
    (member : m ∈ b'.mentions) : m ∈ b.mentions ∨ m ∈ response.mentions := by
  rw [Buckets.mem_mentions] at member ⊢
  cases status with
  | success code =>
    rcases placeSuccess_cases run with
      ⟨absent, rfl⟩ | ⟨existing, known, present, ⟨_, rfl⟩ | ⟨_, rfl⟩⟩
    · grind [Response.mentions_statusCodes]
    · grind [Response.mentions_statusCodes, Buckets.addCode]
    · grind [Response.mentions, Buckets.addCode]
  | accepted | noContent | redirect =>
    obtain ⟨kept, g₁, first, run⟩ := yields_bind.mp run
    obtain ⟨rfl, -⟩ := yields_pure.mp run
    rcases keepFirst_kept first with rfl | rfl
    · exact .inl member
    · grind [Response.mentions_statusCodes]
  | error code =>
    obtain ⟨rfl, -⟩ := yields_pure.mp run
    grind [Response.mentions_statusCodes]

/-- All that taking in a declared response can do: nothing if its status is not known, else the body
is built, if there is to be one, and the response is placed. -/
inductive Added (c : Converter) (b : Buckets) (decl : ResponseDecl) (g : Gathered) (b' : Buckets)
    (g' : Gathered) : Prop
  | passedOver
      (unknown : decl.outcome? = none)
      (buckets : b' = b)
      (classes : g'.classes = g.classes)
  | placed {status : StatusClass} {text : String} {schema : Option Schema} {response : Response}
      {g₁ g₂ : Gathered}
      (known : decl.outcome? = some status)
      (classes : g₁.classes = g.classes)
      (built : Yields (c.responseBody b status decl text) g₁ schema g₂)
      (mentions : response.mentions = itemMentions schema)
      (run : Yields (c.place b status response decl.type) g₂ b' g')

theorem addClassified_added {seen : SeenTypes} {status : StatusClass} {text : String}
    {state : Buckets × SeenTypes} (known : decl.outcome? = some status)
    (run : Yields (c.addClassified b seen decl text status) g state g') :
    Added c b decl g state.1 g' := by
  unfold addClassified at run
  obtain ⟨g₁, reported, run⟩ := (Reports.report ..).yields_guard run
  obtain ⟨_, g₂, checked, run⟩ := yields_bind.mp run
  obtain ⟨-, rfl⟩ := yields_ofExcept.mp checked
  obtain ⟨g₃, binary, run⟩ := (Reports.throw _).yields_guard run
  obtain ⟨schema, g₄, built, run⟩ := yields_bind.mp run
  obtain ⟨b', g₅, placed, eq⟩ := yields_bind.mp run
  obtain ⟨rfl, rfl⟩ := yields_pure.mp eq
  refine .placed known (binary.trans reported) built ?_ placed
  cases schema
  · rfl
  · exact List.append_nil _

theorem addResponse_added {state state' : Buckets × SeenTypes}
    (run : Yields (c.addResponse state decl) g state' g') :
    Added c state.1 decl g state'.1 g' := by
  unfold addResponse at run
  split at run
  · rename_i absent
    obtain ⟨_, _, reported, eq⟩ := yields_bind.mp run
    obtain ⟨rfl, rfl⟩ := yields_pure.mp eq
    exact .passedOver (by simp [ResponseDecl.outcome?, absent]) rfl
      ((Reports.report ..).yields reported).1
  rename_i status present
  split at run
  · rename_i unknown
    obtain ⟨_, _, reported, eq⟩ := yields_bind.mp run
    obtain ⟨rfl, rfl⟩ := yields_pure.mp eq
    exact .passedOver (by simp [ResponseDecl.outcome?, present, unknown]) rfl
      ((Reports.report ..).yields reported).1
  · rename_i known
    exact addClassified_added (by simp [ResponseDecl.outcome?, present, known]) run

/-- What is in the buckets after a declared response was there before or is built for it. -/
theorem addResponse_covers (state : Buckets × SeenTypes) (decl : ResponseDecl) :
    Covers c state.1.mentions (c.addResponse state decl) fun state => state.1.mentions := by
  refine ⟨fun g state' g' run => ?_⟩
  cases addResponse_added run with
  | passedOver unknown buckets classes =>
    exact ⟨[], classes ▸ .nothing, fun m member => .inl (buckets ▸ member)⟩
  | placed known classes built mentions placed =>
    obtain ⟨ms, fills, kept⟩ := (responseBody_covers ..).fills _ _ _ built
    refine ⟨ms, ?_, fun m member => ?_⟩
    · rw [((reports_place ..).yields placed).1, ← classes]
      exact fills
    · rcases mem_mentions_of_place placed member with old | new
      · exact .inl old
      · exact .inr ((kept m (mentions ▸ new)).resolve_left List.not_mem_nil)

/-- Responses mention nothing that their pass has not built, except for the formats of errors. -/
theorem responses_covers (operation : Operation) :
    Covers c [] (c.responses operation) (List.flatMap Response.mentions) :=
  Covers.bind (Covers.foldlM addResponse_covers operation.responses ({}, [])) fun _ =>
    .pure fun _ => id

end Converter
end WireSchema
