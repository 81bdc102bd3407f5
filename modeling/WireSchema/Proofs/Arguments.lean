import Mathlib.Data.List.Forall2
import WireSchema.Proofs.Assembly
import WireSchema.Proofs.Forms

/-! The arguments of a request. In each location they are the parameters that are declared there and
sent, in the path behind those of the host. Constants and others are sorted apart, so that none is
lost or doubled and those of one name keep their order. -/
namespace WireSchema

open ConvertM

namespace Parameter

/-- Headers that a client sets on its own, however they are spelled. -/
def isReserved (p : Parameter) : Bool :=
  p.location == .header &&
    ["content-type", "accept", "x-ms-client-request-id"].contains (Text.asciiLower p.name)

def mayBeAbsent (p : Parameter) : Bool := !(p.location == .path) && p.optional

/-- An argument that stands for a parameter. -/
structure IsSentAs (p : Parameter) (s : NamedSchema) : Prop where
  name : s.name = p.name
  required : s.required = !p.mayBeAbsent
  description : s.description = p.description
  skipUrlEncoding : s.skipUrlEncoding = p.allowReserved

theorem isReserved_eq (p : Parameter) :
    p.isReserved = (Converter.isImpliedHeader p || Converter.isClientRequestId p) := by
  simp only [isReserved, Converter.isImpliedHeader, Converter.isClientRequestId,
    List.contains_cons, List.contains_nil, Bool.or_false, Bool.and_or_distrib_left, Bool.or_assoc]

end Parameter

def TypeGraph.isNever (graph : TypeGraph) (type : TypeRef) : Bool :=
  match graph.resolve type with
  | .ok (.intrinsic .never) => true
  | _ => false

namespace Converter

/-- Whether a parameter is left out that could be sent: it can never have a value, or its type has
no form and it need not be there. -/
def omits (c : Converter) (p : Parameter) : Bool :=
  c.graph.isNever p.type || (p.mayBeAbsent &&
    c.lacksForm p.type { visibility := .query, collection := p.collectionFormat } [p.constraints])

def sendsIn (c : Converter) (location : Location) (p : Parameter) : Bool :=
  p.location == location && !p.isReserved && !c.omits p

def hostNames (c : Converter) : List String :=
  match c.graph.service.server with
  | none => []
  | some server => (server.parameters.entries.filter fun e =>
      !c.lacksForm e.2.type { visibility := .query } []).map Prod.fst

variable {c : Converter}

theorem convert_form (type : TypeRef) (ctx : Context) (site : List Constraints) :
    Gives (c.convert type ctx site) fun a => c.lacksForm type ctx site = a.isNone :=
  ⟨fun _ _ _ run => lacksForm_of_yields run⟩

theorem hostParameter_gives (name : String) (decl : HostParameter) :
    Gives (c.hostParameter name decl) fun s =>
      s.map (·.name) = (if c.lacksForm decl.type { visibility := .query } [] then none
        else some name) ∧ ∀ a ∈ s, a.required := by
  refine (convert_form ..).bind fun schema form => ?_
  cases schema with
  | none => exact .pure (by simp [form])
  | some schema => exact .pure (by simp [form])

theorem hostParameters_give : Gives c.hostParameters fun host =>
    host.map (·.name) = c.hostNames ∧ ∀ s ∈ host, s.required := by
  unfold hostParameters hostNames
  cases c.graph.service.server with
  | none => exact .pure (by simp)
  | some server =>
    refine Gives.any.bind fun _ _ => ?_
    dsimp only
    generalize server.parameters.entries = entries
    induction entries with
    | nil => exact .pure (by simp)
    | cons e rest ih =>
      refine (hostParameter_gives e.1 e.2).bind fun s ⟨name, required⟩ => ?_
      refine ih.bind fun host ⟨names, all⟩ => .pure ⟨?_, ?_⟩
      · cases form : c.lacksForm e.2.type { visibility := .query } [] <;> cases s <;> simp_all
      · simpa [or_imp, forall_and] using ⟨required, all⟩

theorem parameter_gives (p : Parameter) : Gives (c.parameter p) fun s =>
    c.omits p = s.isNone ∧ ∀ a ∈ s, p.IsSentAs a := by
  refine Gives.ofResolve.bind fun resolved here => ?_
  split
  · have never : c.graph.isNever p.type := by simp [TypeGraph.isNever, here]
    exact .pure (by simp [omits, never])
  · rename_i some_value
    have sendable : c.graph.isNever p.type = false := by
      unfold TypeGraph.isNever
      split
      · simp_all
      · rfl
    refine (convert_form ..).bind fun schema form => ?_
    cases schema with
    | none =>
      simp only
      split
      · exact .throw
      · rename_i absent
        refine .pure ?_
        simpa [omits, sendable, form, Parameter.mayBeAbsent] using absent
    | some schema =>
      refine .pure ⟨by simp [omits, sendable, form], ?_⟩
      rintro _ ⟨⟩
      exact ⟨rfl, by simp [Parameter.mayBeAbsent], rfl, rfl⟩

end Converter

namespace Arguments

def addAll (a : Arguments) (own : List NamedSchema) : Arguments where
  params := a.params ++ own.filter (!·.schema.isConst)
  consts := a.consts ++ own.filter (·.schema.isConst)

@[simp] theorem addAll_nil (a : Arguments) : a.addAll [] = a := by simp [addAll]

theorem addAll_append (a : Arguments) (own more : List NamedSchema) :
    a.addAll (own ++ more) = (a.addAll own).addAll more := by simp [addAll]

theorem addAll_singleton (a : Arguments) (s : NamedSchema) : a.addAll [s] = a.add s := by
  unfold addAll add
  cases const : s.schema.isConst <;> simp [const]

end Arguments

def argumentsOf (r : Arguments × Arguments × Headers) : Location → Arguments
  | .path => r.1
  | .query => r.2.1
  | .header => r.2.2.args

def Request.argumentsIn (r : Request) : Location → Arguments
  | .path => r.path.getD {}
  | .query => r.query.getD {}
  | .header => (r.header.map (·.args)).getD {}

namespace Converter

variable {c : Converter}

/-- One parameter is added where it is sent, and nowhere else. -/
theorem addParameter_gives (r : Arguments × Arguments × Headers) (p : Parameter) :
    Gives (c.addParameter r p) fun r' => ∀ location, ∃ own,
      List.Forall₂ Parameter.IsSentAs ([p].filter (c.sendsIn location)) own ∧
      argumentsOf r' location = (argumentsOf r location).addAll own := by
  obtain ⟨path, query, header⟩ := r
  have unsent (left : p.isReserved || c.omits p) (location : Location) :
      [p].filter (c.sendsIn location) = [] := by
    cases here : p.isReserved <;> simp_all [sendsIn]
  unfold addParameter
  simp only
  split
  · rename_i implied
    refine .pure fun location => ⟨[], ?_, by simp⟩
    rw [unsent (by simp [Parameter.isReserved_eq, implied])]
    exact .nil
  split
  · rename_i client
    refine .pure fun location => ⟨[], ?_, by cases location <;> simp [argumentsOf]⟩
    rw [unsent (by simp [Parameter.isReserved_eq, client])]
    exact .nil
  rename_i implied client
  refine (parameter_gives p).bind fun s given => ?_
  obtain ⟨omitted, sent⟩ := given
  cases s with
  | none =>
    refine .pure fun location => ⟨[], ?_, by simp⟩
    rw [unsent (by simp [omitted])]
    exact .nil
  | some s =>
    have sends (location : Location) : c.sendsIn location p = (p.location == location) := by
      simp [sendsIn, Parameter.isReserved_eq, implied, client, omitted]
    have own (location : Location) : List.Forall₂ Parameter.IsSentAs
        ([p].filter (c.sendsIn location)) (if p.location = location then [s] else []) := by
      by_cases here : p.location = location <;> simp [sends, here, sent s rfl]
    simp only
    split
    all_goals
      rename_i its
      refine .pure fun location => ⟨_, own location, ?_⟩
      cases location <;> simp [argumentsOf, its, Arguments.addAll_singleton]

theorem addParameters_give (ps : List Parameter) (r : Arguments × Arguments × Headers) :
    Gives (ps.foldlM c.addParameter r) fun r' => ∀ location, ∃ own,
      List.Forall₂ Parameter.IsSentAs (ps.filter (c.sendsIn location)) own ∧
      argumentsOf r' location = (argumentsOf r location).addAll own := by
  induction ps generalizing r with
  | nil => exact .pure fun location => ⟨[], .nil, by simp⟩
  | cons p rest ih =>
    rw [List.foldlM_cons]
    refine (addParameter_gives r p).bind fun r₁ first => ⟨fun g r₂ g' run => ?_⟩
    intro location
    obtain ⟨own, sent, added⟩ := first location
    obtain ⟨more, later, further⟩ := (ih r₁).known g r₂ g' run location
    refine ⟨own ++ more, ?_, by rw [further, added, Arguments.addAll_append]⟩
    rw [show p :: rest = [p] ++ rest from rfl, List.filter_append]
    exact List.rel_append sent later

end Converter

/-- A list in the order of its names, where what has one name stays in order. -/
structure IsSortOf (sorted input : List NamedSchema) : Prop where
  ordered : sorted.Pairwise fun a b => a.name ≤ b.name
  perm : sorted.Perm input
  stable : ∀ name, sorted.filter (·.name = name) = input.filter (·.name = name)

theorem isSortOf_sortByName (input : List NamedSchema) :
    IsSortOf (Arguments.sortByName input) input := by
  have trans (a b c : NamedSchema) : decide (a.name ≤ b.name) → decide (b.name ≤ c.name) →
      decide (a.name ≤ c.name) := by simpa using String.le_trans
  have total (a b : NamedSchema) : decide (a.name ≤ b.name) || decide (b.name ≤ a.name) := by
    simpa using String.le_total a.name b.name
  have perm : (Arguments.sortByName input).Perm input := List.mergeSort_perm ..
  have ordered : (Arguments.sortByName input).Pairwise fun a b => decide (a.name ≤ b.name) :=
    List.pairwise_mergeSort trans total input
  refine ⟨by simpa using ordered, perm, fun name => ?_⟩
  -- What has one name is in order already, so that the sort has it as a sublist.
  have level : (input.filter (·.name = name)).Pairwise fun a b => decide (a.name ≤ b.name) := by
    refine List.pairwise_of_forall_mem_list fun a here b there => ?_
    obtain rfl : a.name = name := by simpa using (List.mem_filter.mp here).2
    simp [(by simpa using (List.mem_filter.mp there).2 : b.name = a.name)]
  have kept : (input.filter (·.name = name)).Sublist
      ((Arguments.sortByName input).filter (·.name = name)) := by
    have inside : (input.filter (·.name = name)).Sublist (Arguments.sortByName input) :=
      List.sublist_mergeSort trans total level List.filter_sublist
    simpa using inside.filter (·.name = name)
  exact (kept.eq_of_length_le (Nat.le_of_eq (perm.filter _).length_eq)).symm

namespace NamedSchema

variable (names : Slot → Option String) (s : NamedSchema)

@[simp] theorem name_resolve : (s.resolve names).name = s.name := by cases s; rfl

@[simp] theorem required_resolve : (s.resolve names).required = s.required := by cases s; rfl

@[simp] theorem isConst_resolve : (s.resolve names).schema.isConst = s.schema.isConst := by
  obtain ⟨_, ⟨_, _, _, _, _⟩, _⟩ := s
  rfl

end NamedSchema

theorem Parameter.IsSentAs.resolve {p : Parameter} {s : NamedSchema} (sent : p.IsSentAs s)
    (names : Slot → Option String) : p.IsSentAs (s.resolve names) := by
  obtain ⟨name, required, description, skipUrlEncoding⟩ := sent
  cases s
  exact ⟨name, required, description, skipUrlEncoding⟩

/-- Naming classes does not change the names of arguments, so it leaves them sorted. -/
theorem IsSortOf.resolve {sorted input : List NamedSchema} (sort : IsSortOf sorted input)
    (names : Slot → Option String) :
    IsSortOf (sorted.map (·.resolve names)) (input.map (·.resolve names)) := by
  refine ⟨List.pairwise_map.mpr (by simpa using sort.ordered), sort.perm.map _, fun name => ?_⟩
  simp only [List.filter_map, Function.comp_def, NamedSchema.name_resolve, sort.stable]

/-- Arguments of a location: the parameters of the host that belong there, and those in `own`. -/
structure AreSorted (a : Arguments) (host own : List NamedSchema) : Prop where
  params : IsSortOf a.params (host ++ own.filter (!·.schema.isConst))
  consts : IsSortOf a.consts (own.filter (·.schema.isConst))

namespace AreSorted

variable {a : Arguments} {host own : List NamedSchema}

theorem ofAddAll (host own : List NamedSchema) :
    AreSorted (({ params := host } : Arguments).addAll own).sorted host own :=
  ⟨isSortOf_sortByName _, isSortOf_sortByName _⟩

theorem resolve (sorted : AreSorted a host own) (names : Slot → Option String) :
    AreSorted (a.resolve names) (host.map (·.resolve names)) (own.map (·.resolve names)) := by
  have params := sorted.params.resolve names
  have consts := sorted.consts.resolve names
  constructor
  · simpa [Arguments.resolve, List.filter_map, Function.comp_def] using params
  · simpa [Arguments.resolve, List.filter_map, Function.comp_def] using consts

theorem perm (sorted : AreSorted a host own) : (a.params ++ a.consts).Perm (host ++ own) := by
  refine (sorted.params.perm.append sorted.consts.perm).trans ?_
  rw [List.append_assoc]
  refine .append_left host (List.perm_append_comm.trans ?_)
  exact List.filter_append_perm _ own

end AreSorted

theorem Request.argumentsIn_resolve (r : Request) (names : Slot → Option String)
    (location : Location) :
    (r.resolve names).argumentsIn location = (r.argumentsIn location).resolve names := by
  obtain ⟨method, path, query, header, body⟩ := r
  cases location with
  | path => cases path <;> rfl
  | query => cases query <;> rfl
  | header => cases header <;> rfl

theorem Arguments.getD_nonEmpty? (a : Arguments) : a.nonEmpty?.getD {} = a := by
  obtain ⟨params, consts⟩ := a
  unfold nonEmpty?
  split
  · rename_i empty
    obtain ⟨rfl, rfl⟩ : params = [] ∧ consts = [] := by simpa [isEmpty] using empty
    rfl
  · rfl

theorem Headers.getD_nonEmpty? (h : Headers) : (h.nonEmpty?.map (·.args)).getD {} = h.args := by
  obtain ⟨⟨params, consts⟩, client⟩ := h
  unfold nonEmpty?
  split
  · rename_i empty
    obtain ⟨⟨rfl, rfl⟩, -⟩ : (params = [] ∧ consts = []) ∧ client = none := by
      simpa [Arguments.isEmpty] using empty
    rfl
  · rfl

/-- A request has the arguments of a location sorted, those of the host in its path. -/
theorem Converter.request_gives {c : Converter} (host : List NamedSchema) (operation : Operation)
    (stage : Stage) : Gives (c.request host operation stage) fun r => ∀ location, ∃ own,
      List.Forall₂ Parameter.IsSentAs (operation.parameters.filter (c.sendsIn location)) own ∧
      AreSorted (r.argumentsIn location) (if location = .path then host else []) own := by
  refine (addParameters_give operation.parameters _).bind fun (path, query, header) given => ?_
  refine Gives.any.bind fun body _ => .pure fun location => ?_
  obtain ⟨own, sent, added⟩ := given location
  refine ⟨own, sent, ?_⟩
  have start : argumentsOf (({ params := host } : Arguments), {}, {}) location =
      { params := if location = .path then host else [] } := by cases location <;> rfl
  rw [start] at added
  have sorted := AreSorted.ofAddAll (if location = .path then host else []) own
  rw [← added] at sorted
  convert sorted using 1
  cases location with
  | path => exact Arguments.getD_nonEmpty? _
  | query => exact Arguments.getD_nonEmpty? _
  | header => exact Headers.getD_nonEmpty? _

theorem exists_of_forall₂ {α β : Type} {R : α → β → Prop} {as : List α} {bs : List β}
    (related : List.Forall₂ R as bs) {b : β} (member : b ∈ bs) : ∃ a ∈ as, R a b := by
  induction related with
  | nil => cases member
  | cons here _ ih =>
    rcases List.mem_cons.mp member with rfl | later
    · exact ⟨_, List.mem_cons_self, here⟩
    · obtain ⟨a, member, there⟩ := ih later
      exact ⟨a, List.mem_cons_of_mem _ member, there⟩

namespace Passes

variable {graph : TypeGraph} {operation : Operation} {operationId : String} {stage : Stage}
  {schema : OperationSchema}

/-- The parameters of the host as they are emitted, with their classes named. -/
def emittedHost (p : Passes graph operation operationId stage schema) : List NamedSchema :=
  (p.host.map (·.resolve (p.hostTable.finalize graph .read).nameOf)).map
    (·.resolve (p.requestTable.finalize graph stage).nameOf)

theorem sorted (p : Passes graph operation operationId stage schema) (location : Location) :
    ∃ own, List.Forall₂ Parameter.IsSentAs
        (operation.parameters.filter (Converter.sendsIn ⟨graph, operationId⟩ location)) own ∧
      AreSorted (schema.request.argumentsIn location)
        (if location = .path then p.emittedHost else []) own := by
  obtain ⟨_, _, run⟩ := p.request_run
  obtain ⟨own, standIn, sorted⟩ := (Converter.request_gives ..).known _ _ _ run location
  have sorted := sorted.resolve (p.requestTable.finalize graph stage).nameOf
  rw [← Request.argumentsIn_resolve, ← p.request_named] at sorted
  have emitted : (if location = .path then p.host.map
      (·.resolve (p.hostTable.finalize graph .read).nameOf) else []).map
      (·.resolve (p.requestTable.finalize graph stage).nameOf) =
      if location = .path then p.emittedHost else [] := by
    split <;> rfl
  rw [emitted] at sorted
  exact ⟨_, List.forall₂_map_right_iff.mpr (standIn.imp fun _ _ it => it.resolve _), sorted⟩

theorem arguments (p : Passes graph operation operationId stage schema) (location : Location) :
    ∃ host own : List NamedSchema,
      host.map (·.name) =
        (if location = .path then Converter.hostNames ⟨graph, operationId⟩ else []) ∧
      (∀ s ∈ host, s.required) ∧
      List.Forall₂ Parameter.IsSentAs
        (operation.parameters.filter (Converter.sendsIn ⟨graph, operationId⟩ location)) own ∧
      AreSorted (schema.request.argumentsIn location) host own := by
  obtain ⟨_, _, run⟩ := p.host_run
  obtain ⟨names, required⟩ := Converter.hostParameters_give.known _ _ _ run
  obtain ⟨own, standIn, sorted⟩ := p.sorted location
  refine ⟨_, own, ?_, ?_, standIn, sorted⟩
  · split
    · simpa [emittedHost, Function.comp_def] using names
    · rfl
  · split
    · simpa [emittedHost] using required
    · simp

end Passes

namespace Assembler

/-- In each location a request has the declared parameters that are sent there, and in its path
those of the host that have a form: each once, constants and others sorted apart by name, where what
has one name stays in order, the host first. What is in the path is required. -/
theorem arguments_are_those_sent {graph : TypeGraph} {operation : Operation} {operationId : String}
    {stage : Stage} {a : Assembler} {schema : OperationSchema} {ds ds₁ ds₂ ds' : Diagnostics}
    (prepared : Yields (ofOperation graph operation operationId) ds a ds₁)
    (assembled : Yields (a.assemble stage) ds₂ schema ds') (location : Location) :
    let c : Converter := ⟨graph, operationId⟩
    let sent := operation.parameters.filter (c.sendsIn location)
    let arguments := schema.request.argumentsIn location
    ((arguments.params ++ arguments.consts).map (·.name)).Perm
      ((if location = .path then c.hostNames else []) ++ sent.map (·.name)) ∧
    (∃ host own : List NamedSchema,
      host.map (·.name) = (if location = .path then c.hostNames else []) ∧
      List.Forall₂ Parameter.IsSentAs sent own ∧ AreSorted arguments host own) ∧
    (location = .path → ∀ s ∈ arguments.params ++ arguments.consts, s.required) := by
  intro c sent arguments
  obtain ⟨p⟩ := passes_of_assembled prepared assembled
  obtain ⟨host, own, hostNames, required, standIn, sorted⟩ := p.arguments location
  refine ⟨?_, ⟨host, own, hostNames, standIn, sorted⟩, ?_⟩
  · have ownNames : own.map (·.name) = sent.map (·.name) :=
      List.forall₂_eq_eq_eq ▸ List.forall₂_map_left_iff.mpr (List.forall₂_map_right_iff.mpr
        (standIn.flip.imp fun _ _ it => it.name))
    rw [← hostNames, ← ownNames, ← List.map_append]
    exact sorted.perm.map _
  · rintro rfl s member
    rcases List.mem_append.mp (sorted.perm.mem_iff.mp member) with ofHost | declared
    · exact required s ofHost
    · obtain ⟨q, kept, it⟩ := exists_of_forall₂ standIn declared
      have here : q.location = .path := by
        have sends := (List.mem_filter.mp kept).2
        simp only [Converter.sendsIn, Bool.and_eq_true, beq_iff_eq] at sends
        exact sends.1.1
      simp [it.required, Parameter.mayBeAbsent, here]

/-- A service with a host that has one parameter of a type without values. -/
def depot : TypeGraph where
  version := "1"
  service := { server := some {
    url := "https://{endpoint}"
    parameters := .ofEntries [("endpoint", { type := .named "string" }),
      ("nothing", { type := .named "void" })] } }

def getPart : Operation where
  name := "get"
  verb := .get
  path := "/parts/{part}"
  parameters := [
    { name := "part", location := .path, type := .named "string", optional := true },
    { name := "Accept", location := .header, type := .named "string" },
    { name := "endpoint", location := .path, type := .named "int32" },
    { name := "x-MS-client-request-ID", location := .header, type := .named "string" },
    { name := "top", location := .query, type := .named "int32", optional := true },
    { name := "ghost", location := .query, type := .named "never" },
    { name := "api-version", location := .query, type := .literal (.string "1") },
    { name := "void", location := .query, type := .named "void", optional := true }]

theorem part_arguments_sent : ∃ a schema ds ds',
    Yields (ofOperation depot getPart "get") [] a ds ∧ Yields (a.assemble .read) ds schema ds' ∧
      (∀ location, (((schema.request.argumentsIn location).params ++
        (schema.request.argumentsIn location).consts).map (·.name)).Perm (match location with
          | .path => ["endpoint", "part", "endpoint"]
          | .query => ["top", "api-version"]
          | .header => [])) := by
  let both : OperationM OperationSchema := do (← ofOperation depot getPart "get").assemble .read
  obtain ⟨schema, ds', run⟩ := exists_yields (x := both) (g := []) (by decide +kernel)
  obtain ⟨a, ds, prepared, assembled⟩ := yields_bind.mp run
  refine ⟨a, schema, ds, ds', prepared, assembled, fun location => ?_⟩
  refine (arguments_are_those_sent prepared assembled location).1.trans (.of_eq ?_)
  cases location <;> decide +kernel

end Assembler

end WireSchema
