import WireSchema.Proofs.Closure
import WireSchema.Proofs.Requests
import WireSchema.Proofs.Responses

/-! The classes of an assembled operation. What the parameters of the host mention has a slot of
their own pass, but gets the name that this slot has in the pass over the request. So an operation
says what it should exactly if the two passes agree about those slots. -/
namespace WireSchema

open ConvertM ClassTable

theorem yields_asPass {α : Type} {x : ConvertM α} {failed : ConvertError → OperationError}
    {ds ds' : Diagnostics} {a : α} {t : ClassTable} :
    Yields (x.asPass failed) ds (a, t) ds' ↔ Yields x ⟨{}, ds⟩ a ⟨t, ds'⟩ := by
  have run : outcome (x.asPass failed) ds =
      match outcome x ⟨{}, ds⟩ with
      | (.ok a, gathered) => (.ok (a, gathered.classes), gathered.diagnostics)
      | (.error e, gathered) => (.error (failed e), gathered.diagnostics) := rfl
  unfold Yields
  rw [run]
  rcases outcome x ⟨{}, ds⟩ with ⟨_ | _, ⟨_, _⟩⟩ <;> simp [and_assoc]

/-- The passes that the schema of an operation at a stage is put together from. -/
structure Passes (graph : TypeGraph) (operation : Operation) (operationId : String) (stage : Stage)
    (schema : OperationSchema) where
  host : List NamedSchema
  hostTable : ClassTable
  request : Request
  requestTable : ClassTable
  responses : List Response
  responseTable : ClassTable
  host_run : ∃ ds ds', Yields (Converter.hostParameters ⟨graph, operationId⟩) ⟨{}, ds⟩ host
    ⟨hostTable, ds'⟩
  request_run : ∃ ds ds', Yields (Converter.request ⟨graph, operationId⟩
    (host.map (·.resolve (hostTable.finalize graph .read).nameOf)) operation stage) ⟨{}, ds⟩ request
    ⟨requestTable, ds'⟩
  responses_run : ∃ ds ds', Yields (Converter.responses ⟨graph, operationId⟩ operation) ⟨{}, ds⟩
    responses ⟨responseTable, ds'⟩
  request_named : schema.request = request.resolve (requestTable.finalize graph stage).nameOf
  responses_named : schema.responses =
    responses.map (·.resolve (responseTable.finalize graph stage).nameOf)
  request_classes : schema.definitions.request = (requestTable.finalize graph stage).definitions
  response_classes : schema.definitions.responses =
    (responseTable.finalize graph stage).definitions

theorem passes_of_assembled {graph : TypeGraph} {operation : Operation} {operationId : String}
    {stage : Stage} {schema : OperationSchema} {a : Assembler} {ds ds₁ ds₂ ds' : Diagnostics}
    (prepared : Yields (Assembler.ofOperation graph operation operationId) ds a ds₁)
    (assembled : Yields (a.assemble stage) ds₂ schema ds') :
    Nonempty (Passes graph operation operationId stage schema) := by
  obtain ⟨⟨host, hostTable⟩, _, hostPass, eq⟩ := yields_bind.mp prepared
  obtain ⟨rfl, -⟩ := yields_pure.mp eq
  obtain ⟨⟨_, _⟩, _, requested, rest⟩ := yields_bind.mp assembled
  obtain ⟨⟨request, requestTable⟩, _, requestPass, eq⟩ := yields_bind.mp requested
  obtain ⟨⟨⟩, -⟩ := yields_pure.mp eq
  obtain ⟨⟨_, _⟩, _, responded, eq⟩ := yields_bind.mp rest
  obtain ⟨rfl, -⟩ := yields_pure.mp eq
  obtain ⟨⟨responses, responseTable⟩, _, responsePass, eq⟩ := yields_bind.mp responded
  obtain ⟨⟨⟩, -⟩ := yields_pure.mp eq
  exact ⟨
    { host, hostTable, request, requestTable, responses, responseTable
      host_run := ⟨_, _, yields_asPass.mp hostPass⟩
      request_run := ⟨_, _, yields_asPass.mp requestPass⟩
      responses_run := ⟨_, _, yields_asPass.mp responsePass⟩
      request_named := rfl
      responses_named := rfl
      request_classes := rfl
      response_classes := rfl }⟩

/-- Under the name stands, among definitions, what the pass with the table `t` has built and stored
for the class `key`. -/
inductive DefinedFor (c : Converter) (t : ClassTable) (stage : Stage)
    (definitions : OrderedMap String Schema) (key : TypeId × Visibility) (name : String) : Prop
  | intro {slot : Slot} {body : Schema}
      (known : t.keys[slot]? = some key)
      (built : Built c t slot)
      (stored : t.body? slot = some body)
      (named : (t.finalize c.graph stage).nameOf slot = some name)
      (defined : definitions.get? name = some (body.resolve (t.finalize c.graph stage).nameOf))

/-- An emitted mention that was made in a pass with the classes `keys`. If it has a name, its own
class is defined under it, and a reference always has one. -/
def Mention.Faithful (c : Converter) (t : ClassTable) (stage : Stage)
    (definitions : OrderedMap String Schema) (keys : List (TypeId × Visibility)) (m : Mention) :
    Prop :=
  m.hasName ∧ ∃ slot name key, m.target = .shared slot name ∧ keys[slot]? = some key ∧
    ∀ n, name = some n → DefinedFor c t stage definitions key n

namespace Passes

variable {graph : TypeGraph} {operation : Operation} {operationId : String} {stage : Stage}
  {schema : OperationSchema}

/-- What the parameters of the host mention when they are emitted. They are named twice: when their
own pass ends and, with the rest of the request, when that of the request does. -/
def hostMentions (p : Passes graph operation operationId stage schema) : List Mention :=
  propMentions ((p.host.map (·.resolve (p.hostTable.finalize graph .read).nameOf)).map
    (·.resolve (p.requestTable.finalize graph stage).nameOf))

/-- Every mention in the emitted operation says what it should about its own class, except for the
formats of errors. -/
structure Faithful (p : Passes graph operation operationId stage schema) : Prop where
  request : ∃ own, schema.request.mentions.Perm (p.hostMentions ++ own) ∧
    (∀ m ∈ p.hostMentions, m.Faithful ⟨graph, operationId⟩ p.requestTable stage
      schema.definitions.request p.hostTable.keys) ∧
    ∀ m ∈ own, m.Faithful ⟨graph, operationId⟩ p.requestTable stage schema.definitions.request
      p.requestTable.keys
  responses : ∀ m ∈ schema.responses.flatMap Response.mentions, m.IsErrorFormat graph ∨
    m.Faithful ⟨graph, operationId⟩ p.responseTable stage schema.definitions.responses
      p.responseTable.keys

/-- The request shares the slots of all references from the parameters of the host. -/
def HostShared (p : Passes graph operation operationId stage schema) : Prop :=
  ∀ slot, .reference (.shared slot none) ∈ propMentions p.host → 1 < p.requestTable.count slot

/-- Besides, where the request shares a slot that the parameters of the host mention, it has the
same class there. -/
structure SlotsAgree (p : Passes graph operation operationId stage schema) : Prop where
  shared : p.HostShared
  same : ∀ m ∈ propMentions p.host, ∀ slot, m.target = .shared slot none →
    1 < p.requestTable.count slot → p.requestTable.keys[slot]? = p.hostTable.keys[slot]?

end Passes

theorem Arguments.mentions_resolve (names : Slot → Option String) (a : Arguments) :
    (a.resolve names).mentions = a.mentions.map (·.resolve names) := by
  simp only [Arguments.resolve, Arguments.mentions, propMentions_resolve, List.map_append]

theorem Request.mentions_resolve (names : Slot → Option String) (r : Request) :
    (r.resolve names).mentions = r.mentions.map (·.resolve names) := by
  have headers (h : Headers) : Headers.mentions { h with args := h.args.resolve names } =
      h.mentions.map (·.resolve names) := h.args.mentions_resolve names
  simp only [Request.resolve, Request.mentions, List.map_append, Option.toList_map,
    List.flatMap_map, List.map_flatMap, Arguments.mentions_resolve, NamedSchema.mentions_resolve,
    headers]

theorem Response.mentions_resolve (names : Slot → Option String) (r : Response) :
    (r.resolve names).mentions = r.mentions.map (·.resolve names) := by
  simp only [Response.resolve, Response.mentions, ResponseBody.mentions, Option.toList_map,
    List.flatMap_map, List.map_flatMap, Schema.mentions_resolve]

theorem Mention.IsErrorFormat.resolve {graph : TypeGraph} {m : Mention}
    {names : Slot → Option String} (format : m.IsErrorFormat graph) :
    (m.resolve names).IsErrorFormat graph := by
  obtain ⟨id, name, known, rfl⟩ := format
  exact ⟨id, name, known, rfl⟩

section Faithful

variable {c : Converter} {t : ClassTable} {ms : List Mention} {stage : Stage} {m : Mention}
  {slot : Slot}

theorem Accounts.definedFor {key : TypeId × Visibility} {name : String}
    (accounts : Accounts c {} ms t) (known : t.keys[slot]? = some key)
    (named : (t.finalize c.graph stage).nameOf slot = some name) :
    DefinedFor c t stage (t.finalize c.graph stage).definitions key name := by
  obtain ⟨body, built, stored, defined⟩ := accounts.definition_of_name named
  exact .intro known built stored named defined

theorem Accounts.key_of_mention (accounts : Accounts c {} ms t) (member : m ∈ ms)
    (target : m.target = .shared slot none) : ∃ key, t.keys[slot]? = some key := by
  obtain ⟨r, known⟩ := accounts.record_of_mention member target
  exact ⟨_, by rw [keys_getElem?, known]; rfl⟩

/-- The classes of a pass are named by the pass itself as they should be. -/
theorem Accounts.faithful (accounts : Accounts c {} ms t) (member : m ∈ ms) :
    (m.resolve (t.finalize c.graph stage).nameOf).Faithful c t stage
      (t.finalize c.graph stage).definitions t.keys := by
  obtain ⟨slot, target⟩ := accounts.shared m member
  obtain ⟨key, known⟩ := accounts.key_of_mention member target
  have emitted := Mention.target_resolve (t.finalize c.graph stage).nameOf target
  refine ⟨?_, slot, _, key, emitted, known, fun name named => accounts.definedFor known named⟩
  rw [Mention.hasName_iff emitted, Mention.isInline_resolve]
  intro reference
  cases m with
  | inline label o => cases reference
  | reference t =>
    obtain rfl : t = .shared slot none := target
    exact (isSome_nameOf_finalize c.graph stage).mpr (accounts.referred slot member)

/-- A mention from another pass, where its class is `key`, is faithful if the slot has that class
here too, or has no name and needs none. -/
theorem Accounts.faithful_iff {keys : List (TypeId × Visibility)} {key : TypeId × Visibility}
    {name : Option String} (accounts : Accounts c {} ms t) (target : m.target = .shared slot name)
    (known : keys[slot]? = some key) :
    (m.resolve (t.finalize c.graph stage).nameOf).Faithful c t stage
      (t.finalize c.graph stage).definitions keys ↔
      (m.isInline = false → 1 < t.count slot) ∧
        (1 < t.count slot → t.keys[slot]? = some key) := by
  have emitted := Mention.target_resolve (t.finalize c.graph stage).nameOf target
  rw [Mention.Faithful, Mention.hasName_iff emitted, Mention.isInline_resolve,
    isSome_nameOf_finalize]
  refine and_congr_right fun _ => ⟨?_, fun same => ?_⟩
  · rintro ⟨_, _, _, eq, known', defined⟩ twice
    obtain ⟨rfl, rfl⟩ := ClassRef.shared.inj (emitted.symm.trans eq)
    obtain rfl := Option.some.inj (known.symm.trans known')
    obtain ⟨name, named⟩ := nameOf_finalize c.graph stage twice
    -- A name belongs to one slot only, so the class that it is defined for is in this one.
    obtain ⟨there, _, _, named', _⟩ := defined name named
    rwa [nameOf_injective named named']
  · refine ⟨slot, _, key, emitted, known, fun name named => accounts.definedFor (same ?_) named⟩
    exact (isSome_nameOf_finalize c.graph stage).mp (Option.isSome_of_eq_some named)

theorem Accounts.definitions_named (accounts : Accounts c {} ms t) :
    ∀ m ∈ definitionMentions (t.finalize c.graph stage).definitions, m.hasName := by
  intro m member
  obtain ⟨⟨name, definition⟩, defined, inside⟩ := List.mem_flatMap.mp member
  obtain ⟨slot, body, stored, -, rfl⟩ := stored_of_mem_definitions defined
  dsimp only at inside
  rw [Schema.mentions_resolve] at inside
  obtain ⟨m, built, rfl⟩ := List.mem_map.mp inside
  exact (accounts.faithful (accounts.mentions_of_stored stored m built)).1

end Faithful

namespace Passes

variable {graph : TypeGraph} {operation : Operation} {operationId : String} {stage : Stage}
  {schema : OperationSchema} (p : Passes graph operation operationId stage schema)

theorem host_accounts : Accounts ⟨graph, operationId⟩ {} (propMentions p.host) p.hostTable := by
  obtain ⟨_, _, run⟩ := p.host_run
  obtain ⟨ms, same, fills⟩ := Converter.hostParameters_trace.fills _ _ _ run
  exact fills.accounts.reorder same.symm

/-- The request mentions what the parameters of the host do, and what its own pass has built. -/
theorem request_accounts : ∃ ms, Accounts ⟨graph, operationId⟩ {} ms p.requestTable ∧
    schema.request.mentions.Perm (p.hostMentions ++
      ms.map (·.resolve (p.requestTable.finalize graph stage).nameOf)) := by
  obtain ⟨_, _, run⟩ := p.request_run
  obtain ⟨ms, same, fills⟩ := (Converter.request_traces ..).fills _ _ _ run
  refine ⟨ms, fills.accounts, ?_⟩
  rw [p.request_named, Request.mentions_resolve, hostMentions, propMentions_resolve,
    ← List.map_append]
  exact same.map _

theorem request_of_host {m : Mention} (emitted : m ∈ p.hostMentions) :
    m ∈ schema.request.mentions := by
  obtain ⟨_, -, mentions⟩ := p.request_accounts
  exact mentions.mem_iff.mpr (List.mem_append_left _ emitted)

theorem responses_accounts : ∃ ms, Accounts ⟨graph, operationId⟩ {} ms p.responseTable ∧
    ∀ m ∈ schema.responses.flatMap Response.mentions, m.IsErrorFormat graph ∨
      ∃ m' ∈ ms, m = m'.resolve (p.responseTable.finalize graph stage).nameOf := by
  obtain ⟨_, _, run⟩ := p.responses_run
  obtain ⟨ms, fills, kept⟩ := (Converter.responses_covers operation).fills _ _ _ run
  refine ⟨ms, fills.accounts, fun m member => ?_⟩
  rw [p.responses_named] at member
  simp only [List.flatMap_map, Response.mentions_resolve, ← List.map_flatMap] at member
  obtain ⟨m, left, rfl⟩ := List.mem_map.mp member
  rcases kept m left with old | new | format
  · exact absurd old List.not_mem_nil
  · exact .inr ⟨m, new, rfl⟩
  · exact .inl format.resolve

theorem mem_hostMentions {m : Mention} : m ∈ p.hostMentions ↔ ∃ m' ∈ propMentions p.host,
    (m'.resolve (p.hostTable.finalize graph .read).nameOf).resolve
      (p.requestTable.finalize graph stage).nameOf = m := by
  rw [hostMentions, propMentions_resolve, propMentions_resolve]
  simp

/-- The parameters of the host are named as they should be if the slots agree, and only then. -/
theorem faithful_host_iff : (∀ m ∈ p.hostMentions, m.Faithful ⟨graph, operationId⟩ p.requestTable
    stage schema.definitions.request p.hostTable.keys) ↔ p.SlotsAgree := by
  obtain ⟨_, accounts, -⟩ := p.request_accounts
  have host := p.host_accounts
  have each {m : Mention} {slot : Slot} (member : m ∈ propMentions p.host)
      (target : m.target = .shared slot none) :
      ((m.resolve (p.hostTable.finalize graph .read).nameOf).resolve
        (p.requestTable.finalize graph stage).nameOf).Faithful ⟨graph, operationId⟩ p.requestTable
          stage schema.definitions.request p.hostTable.keys ↔
        (m.isInline = false → 1 < p.requestTable.count slot) ∧
          (1 < p.requestTable.count slot →
            p.requestTable.keys[slot]? = p.hostTable.keys[slot]?) := by
    obtain ⟨key, known⟩ := host.key_of_mention member target
    rw [p.request_classes, known, ← Mention.isInline_resolve (m := m)]
    exact accounts.faithful_iff (Mention.target_resolve _ target) known
  constructor
  · intro faithful
    have agree {m : Mention} {slot : Slot} (member : m ∈ propMentions p.host)
        (target : m.target = .shared slot none) :=
      (each member target).mp (faithful _ (p.mem_hostMentions.mpr ⟨m, member, rfl⟩))
    exact
      { shared := fun slot member => (agree member rfl).1 rfl
        same := fun m member slot target => (agree member target).2 }
  · intro agree m member
    obtain ⟨m, made, rfl⟩ := p.mem_hostMentions.mp member
    obtain ⟨slot, target⟩ := host.shared m made
    refine (each made target).mpr ⟨fun reference => ?_, agree.same m made slot target⟩
    cases m with
    | inline label o => cases reference
    | reference t =>
      obtain rfl : t = .shared slot none := target
      exact agree.shared slot made

theorem faithful_iff : p.Faithful ↔ p.SlotsAgree := by
  refine ⟨fun ⟨⟨_, _, host, _⟩, _⟩ => p.faithful_host_iff.mp host, fun agree => ?_⟩
  obtain ⟨ms, accounts, mentions⟩ := p.request_accounts
  obtain ⟨ms', accounts', kept⟩ := p.responses_accounts
  constructor
  · refine ⟨_, mentions, p.faithful_host_iff.mpr agree, fun m member => ?_⟩
    obtain ⟨m, built, rfl⟩ := List.mem_map.mp member
    exact p.request_classes ▸ accounts.faithful built
  · intro m member
    rcases kept m member with format | ⟨m, built, rfl⟩
    · exact .inl format
    · exact .inr (p.response_classes ▸ accounts'.faithful built)

/-- What keeps an operation from having a JSON form are references from the parameters of the
host. -/
theorem isSome_json?_iff : schema.json?.isSome ↔ p.HostShared := by
  obtain ⟨ms, accounts, mentions⟩ := p.request_accounts
  obtain ⟨ms', accounts', kept⟩ := p.responses_accounts
  rw [OperationSchema.isSome_json?, List.all_eq_true]
  constructor
  · intro named slot member
    have emitted := p.request_of_host (p.mem_hostMentions.mpr ⟨_, member, rfl⟩)
    have named := named _ (List.mem_append_left _ (List.mem_append_left _ emitted))
    exact (isSome_nameOf_finalize graph stage).mp named
  · intro shared m member
    simp only [OperationSchema.mentions, List.mem_append] at member
    rcases member with (request | response) | definition | definition
    · rcases List.mem_append.mp (mentions.mem_iff.mp request) with host | own
      · obtain ⟨m, made, rfl⟩ := p.mem_hostMentions.mp host
        obtain ⟨slot, target⟩ := p.host_accounts.shared m made
        cases m with
        | inline label o => rfl
        | reference t =>
          obtain rfl : t = .shared slot none := target
          exact (isSome_nameOf_finalize graph stage).mpr (shared slot made)
      · obtain ⟨m, built, rfl⟩ := List.mem_map.mp own
        exact (accounts.faithful built).1
    · rcases kept m response with ⟨_, name, -, rfl⟩ | ⟨m, built, rfl⟩
      · rfl
      · exact (accounts'.faithful built).1
    · exact accounts.definitions_named m (p.request_classes ▸ definition)
    · exact accounts'.definitions_named m (p.response_classes ▸ definition)

end Passes

/-- All classes that an assembled operation mentions are defined beside it as what they are, and
the operation has a JSON form, exactly if the slots of what the parameters of the host mention are
those of the same classes in the pass over the request. There is no JSON form exactly if the pass
over the request does not share the slot of a reference from those parameters. -/
theorem Assembler.classes_are_defined_iff (graph : TypeGraph) (operation : Operation)
    (operationId : String) (stage : Stage) {a : Assembler} {schema : OperationSchema}
    {ds ds₁ ds₂ ds' : Diagnostics}
    (prepared : Yields (ofOperation graph operation operationId) ds a ds₁)
    (assembled : Yields (a.assemble stage) ds₂ schema ds') :
    Nonempty (Passes graph operation operationId stage schema) ∧
      ∀ p : Passes graph operation operationId stage schema,
        (p.Faithful ∧ schema.json?.isSome ↔ p.SlotsAgree) ∧
          (schema.json?.isSome ↔ p.HostShared) := by
  refine ⟨passes_of_assembled prepared assembled, fun p => ⟨?_, p.isSome_json?_iff⟩⟩
  rw [p.faithful_iff, p.isSome_json?_iff]
  exact and_iff_left_of_imp (·.shared)

namespace Assembler

/-- A service at whose host a node is a parameter. -/
def nodeService : TypeGraph :=
  { Converter.nodes.graph with
    service := { server := some {
      url := "https://nodes"
      parameters := .ofEntries [("endpoint", { type := .named "Node" })] } } }

def listNodes : Operation where
  name := "list"
  verb := .get
  path := "/nodes"

def findNodes : Operation :=
  { listNodes with parameters := [{ name := "like", location := .query, type := .named "Node" }] }

/-- A request that has nodes of its own shares the slot that the parameter of the host mentions. -/
theorem found_nodes_defined : ∃ a schema ds ds',
    Yields (ofOperation nodeService findNodes "find") [] a ds ∧
      Yields (a.assemble .read) ds schema ds' ∧
      ∃ p : Passes nodeService findNodes "find" .read schema, p.Faithful ∧ schema.json?.isSome := by
  have agree {schema : OperationSchema} {o : ObjectSchema}
      (p : Passes nodeService findNodes "find" .read schema)
      (mentioned : propMentions p.host =
        [.inline (.shared 0 none) o, .reference (.shared 0 none)])
      (twice : p.requestTable.count 0 = 2) (same : p.requestTable.keys = p.hostTable.keys) :
      p.SlotsAgree := by
    refine ⟨fun slot member => ?_, fun _ _ _ _ _ => by rw [same]⟩
    obtain rfl : slot = 0 := by simpa [mentioned] using member
    rw [twice]
    exact Nat.one_lt_two
  refine ⟨_, _, _, _, rfl, rfl, ⟨_, _, _, _, _, _, ⟨[], _, rfl⟩, ⟨[], _, rfl⟩, ⟨[], _, rfl⟩, rfl,
    rfl, rfl, rfl⟩, ?_⟩
  exact ((classes_are_defined_iff nodeService findNodes "find" .read rfl rfl).2 _).1.mpr
    (agree _ rfl rfl rfl)

/-- Without a node in the request itself, nothing has a name for the node at the host. -/
theorem listed_host_node_unnamed : ∃ a schema ds ds',
    Yields (ofOperation nodeService listNodes "list") [] a ds ∧
      Yields (a.assemble .read) ds schema ds' ∧
      .reference (.shared 0 none) ∈ schema.request.mentions ∧ schema.json? = none := by
  have unnamed {schema : OperationSchema} {o : ObjectSchema}
      (p : Passes nodeService listNodes "list" .read schema)
      (mentioned : propMentions p.host =
        [.inline (.shared 0 none) o, .reference (.shared 0 none)])
      (empty : p.requestTable = {}) :
      .reference (.shared 0 none) ∈ schema.request.mentions ∧ schema.json? = none := by
    have left : .reference (.shared 0 none) ∈ propMentions p.host := by simp [mentioned]
    have emitted := p.request_of_host (p.mem_hostMentions.mpr ⟨_, left, by rw [empty]⟩)
    refine ⟨emitted, ?_⟩
    rw [← Option.not_isSome_iff_eq_none, p.isSome_json?_iff]
    intro shared
    have := shared 0 left
    rw [empty] at this
    exact absurd this (by decide)
  refine ⟨_, _, _, _, rfl, rfl, ?_⟩
  exact unnamed ⟨_, _, _, _, _, _, ⟨[], _, rfl⟩, ⟨[], _, rfl⟩, ⟨[], _, rfl⟩, rfl, rfl, rfl, rfl⟩
    rfl rfl

end Assembler
end WireSchema
