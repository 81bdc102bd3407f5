import WireSchema.Proofs.Assembly
import WireSchema.Proofs.ScalarChains
import WireSchema.Proofs.Silence

/-! Payloads of bytes. An operation is refused if a payload is the scalar of bytes or derives from
it. A conversion comes to bytes as well behind a union or a property reference, where the check does
not look, so that such a payload gets through and is emitted as one of bytes. -/
namespace WireSchema

open ConvertM Converter

namespace TypeGraph

/-- A type that is the scalar of bytes, or a declared one that derives from it. -/
def IsBytes (graph : TypeGraph) (type : TypeRef) : Prop :=
  graph.resolve type = .ok (.builtin .bytes) ∨
    ∃ id decl path chain, graph.resolve type = .ok (.declared id (.scalar decl)) ∧
      ScalarChain.Unwinds graph id path chain ∧ chain.builtin = .bytes

/-- A type whose conversion comes to bytes. -/
def CarriesBytes (graph : TypeGraph) (type : TypeRef) : Prop :=
  ∃ last, LeadsTo graph type last ∧ graph.IsBytes last

/-- A union with one variant besides null, or a property reference, that comes to bytes. -/
def HidesBytes (graph : TypeGraph) (type : TypeRef) : Prop :=
  ∃ ref layers, HandsDown graph type ref layers ∧ graph.CarriesBytes ref

variable {graph : TypeGraph} {type : TypeRef}

/-- The check follows a scalar to where it derives from. -/
theorem isBytes_iff : Content.isBytes graph type ↔ graph.IsBytes type := by
  have followed (id : TypeId) : (∃ path chain, ScalarChain.Unwinds graph id path chain ∧
      chain.builtin = .bytes) ↔
      ∃ chain, ScalarChain.ofDeclared graph id = .ok chain ∧ chain.builtin = .bytes := by
    rw [exists_comm]
    simp [ScalarChain.ofDeclared_eq_ok_iff]
  unfold Content.isBytes IsBytes
  cases graph.resolve type with
  | error e => simp
  | ok resolved =>
    cases resolved with
    | builtin builtin => cases builtin <;> simp
    | declared id decl =>
      cases decl with
      | scalar decl => cases chained : ScalarChain.ofDeclared graph id <;> simp [followed, chained]
      | _ => simp
    | _ => simp

instance (graph : TypeGraph) (type : TypeRef) : Decidable (graph.IsBytes type) :=
  decidable_of_iff _ isBytes_iff

/-- Bytes are carried openly or behind another type. -/
theorem carriesBytes_iff :
    graph.CarriesBytes type ↔ graph.IsBytes type ∨ graph.HidesBytes type := by
  constructor
  · rintro ⟨last, leads, bytes⟩
    cases leads with
    | here => exact .inl bytes
    | down down leads => exact .inr ⟨_, _, down, last, leads, bytes⟩
  · rintro (bytes | ⟨ref, layers, down, last, leads, bytes⟩)
    · exact ⟨type, .here, bytes⟩
    · exact ⟨last, .down down leads, bytes⟩

end TypeGraph

theorem ScalarChain.kind_of_bytes {chain : ScalarChain} (bytes : chain.builtin = .bytes)
    (site : List Constraints) : chain.kind site = .ofStringType .byte := by
  have plain : ((site ++ chain.layers).findSome? (·.encode)).bind (encodedKind? .bytes) = none := by
    cases (site ++ chain.layers).findSome? (·.encode) <;> rfl
  simp only [kind, bytes, plain]
  rfl

def OfBytes (a : Option Schema) : Prop :=
  ∃ s format values, a = some s ∧ s.kind = .string .byte format values

section Emitted

variable {c : Converter} {models : ModelStep} {fuel : Nat} {type last : TypeRef} {ctx : Context}
  {site : List Constraints} {g g' : Gathered} {a : Option Schema}

theorem ofBytes_of_chain {chain : ScalarChain} (bytes : chain.builtin = .bytes) :
    OfBytes (some (chain.schema site)) := by
  have kind : (chain.schema site).kind =
      (SchemaKind.ofStringType .byte).harvest (site ++ chain.layers) none :=
    congrArg (SchemaKind.harvest · (site ++ chain.layers) none) (chain.kind_of_bytes bytes site)
  exact ⟨_, _, _, rfl, kind⟩

theorem ofBytes_of_leads (leads : LeadsTo c.graph type last) (bytes : c.graph.IsBytes last)
    (run : Yields (c.typesWithin models fuel type ctx site) g a g') : OfBytes a := by
  induction leads generalizing fuel ctx site a with
  | here =>
    cases fuel with
    | zero => simp [typesWithin] at run
    | succ fuel =>
      obtain ⟨resolved, g₁, found, run⟩ := yields_bind.mp run
      obtain ⟨here, rfl⟩ := yields_ofResolve.mp found
      rcases bytes with builtin | ⟨id, decl, path, chain, scalar, unwinds, bytes⟩
      · obtain rfl := Except.ok.inj (here.symm.trans builtin)
        obtain ⟨rfl, -⟩ := yields_pure.mp run
        exact ofBytes_of_chain rfl
      · obtain rfl := Except.ok.inj (here.symm.trans scalar)
        obtain ⟨chain', g₂, followed, run⟩ := yields_bind.mp run
        obtain ⟨chained, rfl⟩ := yields_ofResolve.mp followed
        obtain ⟨path', own⟩ := ScalarChain.ofDeclared_eq_ok_iff.mp chained
        obtain ⟨-, rfl⟩ := own.unique unwinds
        obtain ⟨rfl, -⟩ := yields_pure.mp run
        exact ofBytes_of_chain bytes
  | down down leads ih =>
    cases fuel with
    | zero => simp [typesWithin] at run
    | succ fuel =>
      obtain ⟨ctx', a', nullable, below, rfl⟩ := down.schema run
      obtain ⟨s, format, values, rfl, kind⟩ := ih bytes below
      exact ⟨s.orNullable nullable, format, values, rfl, kind⟩

end Emitted

/-- The types of what an operation sends and of what it can be known to receive. -/
def Operation.payloads (operation : Operation) : List TypeRef :=
  (operation.body.map (·.type)).toList ++
    operation.responses.filterMap fun decl => if decl.outcome?.isSome then decl.type else none

theorem mem_payloads {operation : Operation} {type : TypeRef} : type ∈ operation.payloads ↔
    (∃ body ∈ operation.body, body.type = type) ∨
      ∃ decl ∈ operation.responses, ∃ status, decl.outcome? = some status ∧ type ∈ decl.type := by
  have listed (decl : ResponseDecl) :
      (if decl.outcome?.isSome then decl.type else none) = some type ↔
        ∃ status, decl.outcome? = some status ∧ type ∈ decl.type := by
    cases decl.outcome? <;> simp
  simp [Operation.payloads, listed]

structure ResponseDecl.Admitted (graph : TypeGraph) (decl : ResponseDecl) (status : StatusClass) :
    Prop where
  plain : ∀ type ∈ decl.type, ¬ graph.IsBytes type
  error : status.isError → ∀ type ∈ decl.type, ¬ graph.CarriesBytes type

/-- The type of an error is a model or none of values. -/
theorem not_carriesBytes_of_errorBody {graph : TypeGraph} {type : TypeRef} {status : String}
    {s : Option Schema} (found : ErrorBody.schema? graph (some type) status = .ok s) :
    ¬ graph.CarriesBytes type := by
  have apart : (∃ i, graph.resolve type = .ok (.intrinsic i)) ∨
      ∃ id model, graph.resolve type = .ok (.declared id (.model model)) := by
    simp only [ErrorBody.schema?] at found
    split at found
    · cases found
    · rename_i i here
      exact .inl ⟨i, here⟩
    · rename_i id model here
      exact .inr ⟨id, model, here⟩
    · cases found
  rw [TypeGraph.carriesBytes_iff]
  rintro ((builtin | ⟨_, _, _, _, scalar, -⟩) | ⟨_, _, down, -⟩)
  · simp_all
  · simp_all
  · cases down <;> simp_all

namespace Converter

variable {c : Converter}

theorem addClassified_admits (b : Buckets) (seen : SeenTypes) (decl : ResponseDecl) (text : String)
    (status : StatusClass) :
    Gives (c.addClassified b seen decl text status) fun _ => decl.Admitted c.graph status := by
  refine ⟨fun g state g' run => ?_⟩
  unfold addClassified at run
  obtain ⟨g₁, -, run⟩ := (Reports.report ..).yields_guard run
  obtain ⟨_, g₂, -, run⟩ := yields_bind.mp run
  obtain ⟨plain, run⟩ := yields_unless.mp run
  obtain ⟨schema, g₃, built, -⟩ := yields_bind.mp run
  constructor
  · rintro type declared bytes
    rw [Option.mem_def.mp declared, Option.any_some, TypeGraph.isBytes_iff] at plain
    exact plain bytes
  · intro fails type declared
    rw [responseBody, if_pos fails, Option.mem_def.mp declared] at built
    exact not_carriesBytes_of_errorBody (yields_ofExcept.mp built).1

theorem responses_admit (operation : Operation) : Gives (c.responses operation) fun _ =>
    ∀ decl ∈ operation.responses, ∀ status, decl.outcome? = some status →
      decl.Admitted c.graph status := by
  refine .bind (.foldlM_each (fun state decl => ?_) _) fun _ known => .pure known
  unfold addResponse ResponseDecl.outcome?
  cases decl.status with
  | none => exact .bind .any fun _ _ => .pure nofun
  | some declared =>
    simp only [Option.bind_some]
    cases StatusClass.ofStatus? declared with
    | none => exact .bind .any fun _ _ => .pure nofun
    | some status =>
      refine ⟨fun g state' g' run other same => ?_⟩
      cases same
      exact (addClassified_admits ..).known _ _ _ run

theorem requestBody_admits (body : BodyDecl) (stage : Stage) :
    Gives (c.requestBody (some body) stage) fun s => ¬ c.graph.IsBytes body.type ∧
      (c.graph.CarriesBytes body.type → ∃ b format values, s = some b ∧
        b.schema.kind = .string .byte format values) := by
  refine ⟨fun g s g' run => ?_⟩
  unfold requestBody at run
  obtain ⟨_, g₁, -, run⟩ := yields_bind.mp run
  obtain ⟨plain, run⟩ := yields_unless.mp run
  obtain ⟨schema, g₂, converted, run⟩ := yields_bind.mp run
  refine ⟨fun bytes => plain (TypeGraph.isBytes_iff.mpr bytes), fun ⟨last, leads, bytes⟩ => ?_⟩
  obtain ⟨a, format, values, rfl, kind⟩ := ofBytes_of_leads leads bytes converted
  obtain ⟨rfl, -⟩ := yields_pure.mp run
  exact ⟨_, format, values, rfl, kind⟩

end Converter

namespace Assembler

variable {a : Assembler} {stage : Stage} {schema : OperationSchema} {ds ds' : Diagnostics}

/-- The body of an assembled operation and its responses have been converted. -/
theorem payloads_of_assembled (assembled : Yields (a.assemble stage) ds schema ds') :
    ∃ names g₁ body g₁' g₂ responses g₂',
      schema.request.body = Option.map (NamedSchema.resolve names) body ∧
      Yields (a.converter.requestBody a.operation.body stage) g₁ body g₁' ∧
      Yields (a.converter.responses a.operation) g₂ responses g₂' := by
  obtain ⟨_, _, requested, rest⟩ := yields_bind.mp assembled
  obtain ⟨_, _, responded, eq⟩ := yields_bind.mp rest
  obtain ⟨rfl, -⟩ := yields_pure.mp eq
  obtain ⟨⟨request, _⟩, _, requestPass, eq⟩ := yields_bind.mp requested
  obtain ⟨⟨⟩, -⟩ := yields_pure.mp eq
  obtain ⟨⟨responses, _⟩, _, responsePass, -⟩ := yields_bind.mp responded
  obtain ⟨arguments, _, -, rest⟩ := yields_bind.mp (yields_asPass.mp requestPass)
  obtain ⟨body, _, bodied, eq⟩ := yields_bind.mp rest
  obtain ⟨rfl, -⟩ := yields_pure.mp eq
  exact ⟨_, _, body, _, _, responses, _, rfl, bodied, yields_asPass.mp responsePass⟩

/-- No payload of an assembled operation is bytes or derives from it, and no error comes to bytes in
any way. So all payloads are free of bytes exactly if none hides them behind a union or a property
reference. A request body that does so is emitted as one of bytes. -/
theorem bytes_are_refused_iff (assembled : Yields (a.assemble stage) ds schema ds') :
    ((∀ type ∈ a.operation.payloads, ¬ a.graph.CarriesBytes type) ↔
      ∀ type ∈ a.operation.payloads, ¬ a.graph.HidesBytes type) ∧
    (∀ type ∈ a.operation.payloads, ¬ a.graph.IsBytes type) ∧
    (∀ decl ∈ a.operation.responses, ∀ code, decl.outcome? = some (.error code) →
      ∀ type ∈ decl.type, ¬ a.graph.CarriesBytes type) ∧
    ∀ body ∈ a.operation.body, a.graph.CarriesBytes body.type →
      ∃ b format values, schema.request.body = some b ∧
        b.schema.kind = .string .byte format values := by
  obtain ⟨names, _, body, _, _, responses, _, emitted, bodied, responded⟩ :=
    payloads_of_assembled assembled
  have received := (Converter.responses_admit a.operation).known _ _ _ responded
  have sent : ∀ decl ∈ a.operation.body, ¬ a.graph.IsBytes decl.type ∧
      (a.graph.CarriesBytes decl.type → ∃ b format values, body = some b ∧
        b.schema.kind = .string .byte format values) := by
    intro decl declared
    rw [Option.mem_def.mp declared] at bodied
    exact (Converter.requestBody_admits decl stage).known _ _ _ bodied
  have plain : ∀ type ∈ a.operation.payloads, ¬ a.graph.IsBytes type := by
    intro type payload
    rcases mem_payloads.mp payload with ⟨decl, declared, rfl⟩ | ⟨decl, listed, status, known, its⟩
    · exact (sent decl declared).1
    · exact (received decl listed status known).plain type its
  refine ⟨?_, plain, ?_, ?_⟩
  · refine forall₂_congr fun type payload => not_congr ?_
    rw [TypeGraph.carriesBytes_iff, or_iff_right (plain type payload)]
  · exact fun decl listed code known => (received decl listed _ known).error rfl
  · intro decl declared carries
    obtain ⟨b, format, values, rfl, kind⟩ := (sent decl declared).2 carries
    refine ⟨_, format, values, emitted, ?_⟩
    obtain ⟨name, ⟨kind', _, _, _, _⟩⟩ := b
    obtain rfl : kind' = .string .byte format values := kind
    rfl

/-- Names are texts, certificates are bytes, and there may be none of either. -/
def registry : TypeGraph where
  version := "1"
  types := .ofEntries [
    ("Name", .scalar { base := some "string" }),
    ("Certificate", .scalar { base := some "bytes" }),
    ("MaybeName", .union { variants := [.named "Name", .named "null"] }),
    ("MaybeCertificate", .union { variants := [.named "Certificate", .named "null"] })]

def exchange (type : String) : Operation where
  name := "put"
  verb := .put
  path := "/registry"
  body := some { type := .named type }
  responses := [{ status := some (.code 200), type := some (.named type) }]

theorem names_are_no_bytes : ∃ a schema ds ds',
    Yields (ofOperation registry (exchange "MaybeName") "put") [] a ds ∧
      Yields (a.assemble .create) ds schema ds' ∧
      ∀ type ∈ a.operation.payloads, ¬ a.graph.CarriesBytes type := by
  obtain ⟨a, schema, ds, ds', graph, payloads, prepared, assembled⟩ : ∃ a schema ds ds',
      a.graph = registry ∧ a.operation.payloads = [.named "MaybeName", .named "MaybeName"] ∧
        Yields (ofOperation registry (exchange "MaybeName") "put") [] a ds ∧
        Yields (a.assemble .create) ds schema ds' := ⟨_, _, _, _, rfl, rfl, rfl, rfl⟩
  refine ⟨a, schema, ds, ds', prepared, assembled,
    (bytes_are_refused_iff assembled).1.mpr fun type payload => ?_⟩
  rw [graph]
  obtain rfl : type = .named "MaybeName" := by simpa [payloads] using payload
  rintro ⟨ref, layers, down, last, leads, bytes⟩
  obtain rfl : ref = .named "Name" := by
    cases down with
    | variant here alone =>
      cases here
      exact (List.cons.inj alone).1.symm
    | link here => cases here
  cases leads with
  | here => exact absurd bytes (by decide +kernel)
  | down down =>
    cases down with
    | variant here | link here => cases here

/-- A certificate is refused as a payload, but not if there may be none. -/
theorem certificate_gets_through : ∃ a schema ds ds' b format values,
    Yields (ofOperation registry (exchange "MaybeCertificate") "put") [] a ds ∧
      Yields (a.assemble .create) ds schema ds' ∧
      (∃ type ∈ a.operation.payloads, a.graph.CarriesBytes type) ∧
      schema.request.body = some b ∧ b.schema.kind = .string .byte format values := by
  have down : HandsDown registry (.named "MaybeCertificate") (.named "Certificate") [] :=
    .variant rfl rfl
  refine ⟨_, _, _, _, _, _, _, rfl, rfl,
    ⟨.named "MaybeCertificate", List.mem_append_left _ (List.mem_singleton_self _), ?_⟩, rfl, rfl⟩
  exact ⟨.named "Certificate", .down down .here, by decide +kernel⟩

end Assembler
end WireSchema
