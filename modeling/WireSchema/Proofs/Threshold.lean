import WireSchema.Proofs.Assembly

/-! How often the classes that are defined beside an assembled operation are mentioned in it. A pass
counts a class when it meets it. All that the pass over the request meets is emitted, but a success
gives way to a later one of another type, and what its body mentions has been counted. A ledger of
what gives way, kept beside the pass over the responses, balances: what is emitted and what has
given way are together what was counted. -/
namespace WireSchema

open ConvertM ClassTable

namespace Mention

variable {name : String} {slot : Slot} {m : Mention}

/-- Whether a class of the pass is mentioned, and not a format that is defined elsewhere. -/
def isOwn (m : Mention) : Bool :=
  match m.target with
  | .shared .. => true
  | .external _ => false

def isNamed (name : String) (m : Mention) : Bool := m.target.name? = some name

def isFormat (name : String) (m : Mention) : Bool := !m.isOwn && m.isNamed name

theorem isOwn_of_target {label : Option String} (target : m.target = .shared slot label) :
    m.isOwn := by simp [isOwn, target]

theorem countP_isAt_own (ms : List Mention) :
    (ms.filter (·.isOwn)).countP (·.isAt slot) = ms.countP (·.isAt slot) := by
  rw [List.countP_filter]
  refine List.countP_congr fun m _ => ?_
  cases target : m.target <;> simp [isAt, isOwn, target]

/-- Of the mentions that are named when a pass ends, those with the name of a slot are the mentions
of that slot, and those of a format that happens to have this name. -/
theorem countP_isNamed {t : ClassTable} {graph : TypeGraph} {stage : Stage}
    (named : (t.finalize graph stage).nameOf slot = some name) (ms : List Mention) :
    (ms.map (·.resolve (t.finalize graph stage).nameOf)).countP (·.isNamed name) =
      ms.countP (·.isAt slot) +
        (ms.map (·.resolve (t.finalize graph stage).nameOf)).countP (·.isFormat name) := by
  induction ms with
  | nil => rfl
  | cons m rest ih =>
    simp only [List.map_cons, List.countP_cons, ih]
    cases target : m.target with
    | shared s label =>
      have emitted := target_resolve (t.finalize graph stage).nameOf target
      have here : (t.finalize graph stage).nameOf s = some name ↔ s = slot :=
        ⟨fun there => nameOf_injective there named, fun same => same ▸ named⟩
      simp only [isNamed, isFormat, isOwn, isAt, emitted, target, ClassRef.name?, here,
        Bool.not_true, Bool.false_and, Bool.false_eq_true, if_false]
      omega
    | external format =>
      have emitted : (m.resolve (t.finalize graph stage).nameOf).target = .external format := by
        cases m <;> (cases target; rfl)
      simp only [isNamed, isFormat, isOwn, isAt, emitted, target, Bool.not_false, Bool.true_and,
        Bool.false_eq_true, if_false]
      omega

end Mention

theorem ClassTable.slot_of_definition {t : ClassTable} {graph : TypeGraph} {stage : Stage}
    {name : String} (defined : name ∈ (t.finalize graph stage).definitions.keys) :
    ∃ slot, (t.finalize graph stage).nameOf slot = some name ∧ 1 < t.count slot := by
  obtain ⟨⟨_, definition⟩, member, rfl⟩ := List.mem_map.mp defined
  obtain ⟨slot, -, -, named, -⟩ := stored_of_mem_definitions member
  exact ⟨slot, named, (isSome_nameOf_finalize graph stage).mp (Option.isSome_of_eq_some named)⟩

/-- What a pass builds are its own classes. -/
theorem Traces.own {α : Type} {c : Converter} {x : ConvertM α} {after : α → List Mention}
    (traces : Traces c [] x after) : Traces c [] x fun a => (after a).filter (·.isOwn) := by
  refine ⟨fun g a g' run => ?_⟩
  obtain ⟨ms, same, fills⟩ := traces.fills g a g' run
  have own : ms.filter (·.isOwn) = ms := List.filter_eq_self.mpr fun m member => by
    obtain ⟨_, target⟩ := fills.accounts.shared m member
    exact Mention.isOwn_of_target target
  rw [List.nil_append] at same
  exact ⟨ms, by simpa [own] using same.filter (·.isOwn), fills⟩

/-- The mentions of classes of the pass in responses. -/
def ownMentions (rs : List Response) : List Mention :=
  (rs.flatMap Response.mentions).filter (·.isOwn)

@[simp] theorem ownMentions_nil : ownMentions [] = [] := rfl

@[simp] theorem ownMentions_append (rs rs' : List Response) :
    ownMentions (rs ++ rs') = ownMentions rs ++ ownMentions rs' := by
  simp [ownMentions]

namespace Buckets

def own (b : Buckets) : List Mention := ownMentions b.ordered

/-- What gives way to a further response: what the success mentions, if another type succeeds. -/
def givesWay (b : Buckets) (status : StatusClass) (type : Option TypeRef) : List Mention :=
  match status, b.success with
  | .success _, some (existing, known) =>
    if sameType known type then [] else ownMentions [existing]
  | _, _ => []

def known (b : Buckets) : Option (Option TypeRef) := b.success.map (·.2)

end Buckets

def Buckets.givesWayTo (b : Buckets) (decl : ResponseDecl) : List Mention :=
  match decl.outcome? with
  | some status => b.givesWay status decl.type
  | none => []

def successTypes (decls : List ResponseDecl) : List (Option TypeRef) :=
  decls.filterMap fun decl =>
    match decl.outcome? with
    | some (.success _) => some decl.type
    | _ => none

namespace Converter

variable {c : Converter} {b b' : Buckets} {decl : ResponseDecl} {g g' : Gathered}

/-- Takes in a declared response and enters in the ledger what gives way to it. -/
def addResponseLedger (c : Converter) (state : (Buckets × SeenTypes) × List Mention)
    (decl : ResponseDecl) : ConvertM ((Buckets × SeenTypes) × List Mention) := do
  return (← c.addResponse state.1 decl, state.2 ++ state.1.1.givesWayTo decl)

def responsesLedger (c : Converter) (operation : Operation) :
    ConvertM (List Response × List Mention) := do
  let ((buckets, _), ledger) ← operation.responses.foldlM c.addResponseLedger (({}, []), [])
  return (buckets.ordered, ledger)

/-- The ledger is kept beside the pass and does not change it. -/
theorem foldlM_ledger {decls : List ResponseDecl} {state state' : Buckets × SeenTypes}
    (run : Yields (decls.foldlM c.addResponse state) g state' g') (ledger : List Mention) :
    ∃ ledger', Yields (decls.foldlM c.addResponseLedger (state, ledger)) g (state', ledger')
      g' := by
  induction decls generalizing state g ledger with
  | nil =>
    obtain ⟨rfl, rfl⟩ := yields_pure.mp run
    exact ⟨ledger, yields_pure.mpr ⟨rfl, rfl⟩⟩
  | cons decl rest ih =>
    obtain ⟨next, g₁, here, run⟩ := yields_bind.mp run
    obtain ⟨ledger', there⟩ := ih run (ledger ++ state.1.givesWayTo decl)
    refine ⟨ledger', yields_bind.mpr ⟨_, g₁, ?_, there⟩⟩
    exact yields_bind.mpr ⟨next, g₁, here, yields_pure.mpr ⟨rfl, rfl⟩⟩

theorem responses_ledger {operation : Operation} {rs : List Response}
    (run : Yields (c.responses operation) g rs g') :
    ∃ ledger, Yields (c.responsesLedger operation) g (rs, ledger) g' := by
  obtain ⟨state, g₁, folded, eq⟩ := yields_bind.mp run
  obtain ⟨rfl, rfl⟩ := yields_pure.mp eq
  obtain ⟨ledger, kept⟩ := foldlM_ledger folded []
  exact ⟨ledger, yields_bind.mpr ⟨_, _, kept, yields_pure.mpr ⟨rfl, rfl⟩⟩⟩

/-- No body is built for a response that would leave the one that there is. -/
theorem responseBody_of_keepsBody {status : StatusClass} {text : String} {schema : Option Schema}
    (kept : b.keepsBody status decl.type)
    (run : Yields (c.responseBody b status decl text) g schema g') : schema = none := by
  unfold responseBody at run
  cases status with
  | error code => cases kept
  | success code | accepted | noContent | redirect code =>
    simp only [StatusClass.isError, Bool.false_eq_true, if_false, if_pos kept] at run
    exact (yields_pure.mp run).1.symm

theorem responseBody_own (b : Buckets) (status : StatusClass) (decl : ResponseDecl)
    (text : String) : Traces c [] (c.responseBody b status decl text)
      fun schema => (itemMentions schema).filter (·.isOwn) := by
  unfold responseBody
  split
  · refine .ofReports (.ofExcept _) fun g schema g' run => ?_
    obtain ⟨found, -⟩ := yields_ofExcept.mp run
    cases schema with
    | none => rfl
    | some s =>
      obtain ⟨_, _, -, rfl⟩ := format_of_errorBody found
      rfl
  split
  · exact .pure rfl
  split
  · exact .pure rfl
  · exact (convert_traces ..).own

theorem keepFirst_own {first kept : Option Response} {response : Response} {code : DiagnosticCode}
    {new : List Mention} (run : Yields (c.keepFirst first response code) g kept g')
    (own : ownMentions [response] = new) (nothing : first.isSome → new = []) :
    (ownMentions kept.toList).Perm (ownMentions first.toList ++ new) := by
  unfold keepFirst at run
  split at run
  · obtain ⟨_, _, _, eq⟩ := yields_bind.mp run
    obtain ⟨rfl, -⟩ := yields_pure.mp eq
    rw [nothing rfl, List.append_nil]
  · obtain ⟨rfl, -⟩ := yields_pure.mp run
    rw [Option.toList_some, own, Option.toList_none, ownMentions_nil, List.nil_append]

/-- What is placed and what gives way to it are together what was there before and what is new. -/
theorem place_own {status : StatusClass} {response : Response} {type : Option TypeRef}
    (run : Yields (c.place b status response type) g b' g')
    (nothing : b.keepsBody status type → ownMentions [response] = []) :
    (b'.own ++ b.givesWay status type).Perm (b.own ++ ownMentions [response]) := by
  cases status with
  | success code =>
    rcases placeSuccess_cases run with
      ⟨absent, rfl⟩ | ⟨existing, known, present, ⟨same, rfl⟩ | ⟨differ, rfl⟩⟩
    · simp only [Buckets.own, Buckets.givesWay, Buckets.ordered, absent, ownMentions_append,
        Option.map_none, Option.toList_none, ownMentions_nil, List.append_nil]
      exact perm_move (perm_move (perm_move (perm_move (.refl _))))
    · have nothing := nothing (by simp [Buckets.keepsBody, present, same])
      simp only [Buckets.own, Buckets.givesWay, Buckets.ordered, present, same, nothing,
        if_true, ownMentions_append, List.append_nil]
      exact .refl _
    · -- The body that was there leaves the buckets for the ledger.
      simp only [Buckets.own, Buckets.givesWay, Buckets.ordered, present, differ,
        ownMentions_append]
      refine List.perm_append_comm.trans ?_
      simp only [Bool.false_eq_true, if_false, ← List.append_assoc]
      exact perm_move (perm_move (perm_move (perm_move (.refl _))))
  | accepted =>
    obtain ⟨kept, g₁, first, run⟩ := yields_bind.mp run
    obtain ⟨rfl, -⟩ := yields_pure.mp run
    simp only [Buckets.own, Buckets.givesWay, Buckets.ordered, ownMentions_append, List.append_nil]
    exact perm_move (perm_move (perm_move (perm_behind (keepFirst_own first rfl nothing))))
  | noContent =>
    obtain ⟨kept, g₁, first, run⟩ := yields_bind.mp run
    obtain ⟨rfl, -⟩ := yields_pure.mp run
    simp only [Buckets.own, Buckets.givesWay, Buckets.ordered, ownMentions_append, List.append_nil]
    exact perm_move (perm_move (perm_behind (keepFirst_own first rfl nothing)))
  | redirect code =>
    obtain ⟨kept, g₁, first, run⟩ := yields_bind.mp run
    obtain ⟨rfl, -⟩ := yields_pure.mp run
    simp only [Buckets.own, Buckets.givesWay, Buckets.ordered, ownMentions_append, List.append_nil]
    exact perm_move (perm_behind (keepFirst_own first rfl nothing))
  | error code =>
    obtain ⟨rfl, -⟩ := yields_pure.mp run
    simp only [Buckets.own, Buckets.givesWay, Buckets.ordered, ownMentions_append, List.append_nil,
      List.append_assoc]
    exact .refl _

theorem addResponse_own {state state' : Buckets × SeenTypes}
    (run : Yields (c.addResponse state decl) g state' g') :
    ∃ ms, (state'.1.own ++ state.1.givesWayTo decl).Perm (state.1.own ++ ms) ∧
      Fills c g.classes ms g'.classes := by
  cases addResponse_added run with
  | passedOver unknown buckets classes =>
    refine ⟨[], ?_, classes ▸ .nothing⟩
    rw [buckets]
    simp [Buckets.givesWayTo, unknown]
  | @placed status text schema response g₁ g₂ known classes built mentions run =>
    obtain ⟨ms, same, fills⟩ := (responseBody_own ..).fills _ _ _ built
    rw [List.nil_append] at same
    have new : ownMentions [response] = (itemMentions schema).filter (·.isOwn) := by
      simp [ownMentions, mentions]
    refine ⟨ms, ?_, ?_⟩
    · have placed := place_own run fun kept => by
        rw [new, responseBody_of_keepsBody kept built]
        rfl
      simp only [Buckets.givesWayTo, known]
      exact placed.trans ((new ▸ same).append_left _)
    · rw [(reports_place ..).yields run |>.1, ← classes]
      exact fills

/-- The ledger balances: the responses so far and what has given way among them are what the pass
has built. -/
theorem addResponseLedger_traces (state : (Buckets × SeenTypes) × List Mention)
    (decl : ResponseDecl) : Traces c (state.1.1.own ++ state.2) (c.addResponseLedger state decl)
      fun state => state.1.1.own ++ state.2 := by
  refine ⟨fun g state' g' run => ?_⟩
  obtain ⟨next, g₁, here, eq⟩ := yields_bind.mp run
  obtain ⟨rfl, rfl⟩ := yields_pure.mp eq
  obtain ⟨ms, same, fills⟩ := addResponse_own here
  refine ⟨ms, ?_, fills⟩
  refine .trans (List.perm_append_comm.append_left _) ?_
  rw [← List.append_assoc]
  exact perm_move same

theorem responsesLedger_traces (operation : Operation) :
    Traces c [] (c.responsesLedger operation) fun r => ownMentions r.1 ++ r.2 :=
  Traces.bind (Traces.foldlM addResponseLedger_traces operation.responses (({}, []), []))
    fun _ => .pure rfl

/-- The type of the success is that of the first one, or of the latest one of another type. -/
theorem place_known {status : StatusClass} {response : Response} {type : Option TypeRef}
    (run : Yields (c.place b status response type) g b' g') :
    b'.known = match status, b.known with
      | .success _, none => some type
      | .success _, some known => some (if sameType known type then known else type)
      | _, known => known := by
  cases status with
  | success code =>
    rcases placeSuccess_cases run with
      ⟨absent, rfl⟩ | ⟨existing, known, present, ⟨same, rfl⟩ | ⟨differ, rfl⟩⟩
    · simp [Buckets.known, absent]
    · simp [Buckets.known, present, same]
    · simp [Buckets.known, present, differ]
  | accepted | noContent | redirect =>
    obtain ⟨_, _, _, run⟩ := yields_bind.mp run
    obtain ⟨rfl, -⟩ := yields_pure.mp run
    rfl
  | error code =>
    obtain ⟨rfl, -⟩ := yields_pure.mp run
    rfl

/-- Nothing gives way while all successes have the type of the first one. -/
theorem addResponse_agreeing {state state' : Buckets × SeenTypes} {rest : List ResponseDecl}
    (run : Yields (c.addResponse state decl) g state' g')
    (agree : (state.1.known.toList ++ successTypes (decl :: rest)).Pairwise (sameType · ·)) :
    state.1.givesWayTo decl = [] ∧
      (state'.1.known.toList ++ successTypes rest).Pairwise (sameType · ·) := by
  cases addResponse_added run with
  | passedOver unknown buckets classes =>
    simp only [successTypes, List.filterMap_cons, unknown] at agree
    exact ⟨by simp [Buckets.givesWayTo, unknown], buckets ▸ agree⟩
  | @placed status text schema response g₁ g₂ known classes built mentions run =>
    have types := place_known run
    simp only [successTypes, List.filterMap_cons, known] at agree
    cases status with
    | success code =>
      cases success : state.1.success with
      | none =>
        have absent : state.1.known = none := by simp [Buckets.known, success]
        rw [types, absent]
        rw [absent] at agree
        exact ⟨by simp [Buckets.givesWayTo, known, Buckets.givesWay, success], agree⟩
      | some s =>
        have present : state.1.known = some s.2 := by simp [Buckets.known, success]
        rw [present] at agree
        have same : sameType s.2 decl.type := List.rel_of_pairwise_cons agree List.mem_cons_self
        rw [types, present]
        refine ⟨by simp [Buckets.givesWayTo, known, Buckets.givesWay, success, same], ?_⟩
        simp only [same, if_true]
        exact agree.sublist (.cons_cons _ (.cons _ (.refl _)))
    | accepted | noContent | redirect | error =>
      exact ⟨by simp [Buckets.givesWayTo, known, Buckets.givesWay], types ▸ agree⟩

theorem foldlM_ledger_agreeing {decls : List ResponseDecl}
    {state state' : (Buckets × SeenTypes) × List Mention}
    (run : Yields (decls.foldlM c.addResponseLedger state) g state' g')
    (agree : (state.1.1.known.toList ++ successTypes decls).Pairwise (sameType · ·)) :
    state'.2 = state.2 := by
  induction decls generalizing state g with
  | nil =>
    obtain ⟨rfl, -⟩ := yields_pure.mp run
    rfl
  | cons decl rest ih =>
    obtain ⟨_, g₁, here, further⟩ := yields_bind.mp run
    obtain ⟨next, _, added, eq⟩ := yields_bind.mp here
    obtain ⟨rfl, rfl⟩ := yields_pure.mp eq
    obtain ⟨nothing, agree⟩ := addResponse_agreeing added agree
    rw [ih further agree, nothing, List.append_nil]

theorem responsesLedger_agreeing {operation : Operation} {rs : List Response}
    {ledger : List Mention} (run : Yields (c.responsesLedger operation) g (rs, ledger) g')
    (agree : (successTypes operation.responses).Pairwise (sameType · ·)) : ledger = [] := by
  obtain ⟨state, g₁, folded, eq⟩ := yields_bind.mp run
  obtain ⟨⟨rfl, rfl⟩, -⟩ := yields_pure.mp eq
  exact foldlM_ledger_agreeing folded agree

end Converter

namespace Passes

variable {graph : TypeGraph} {operation : Operation} {operationId : String} {stage : Stage}
  {schema : OperationSchema} (p : Passes graph operation operationId stage schema)

/-- What has given way in the pass over the responses. -/
def GaveWay (ledger : List Mention) : Prop :=
  ∃ ds ds', Yields (Converter.responsesLedger ⟨graph, operationId⟩ operation) ⟨{}, ds⟩
    (p.responses, ledger) ⟨p.responseTable, ds'⟩

theorem exists_gaveWay : ∃ ledger, p.GaveWay ledger := by
  obtain ⟨ds, ds', run⟩ := p.responses_run
  obtain ⟨ledger, kept⟩ := Converter.responses_ledger run
  exact ⟨ledger, ds, ds', kept⟩

include p in
/-- The emitted request mentions whatever is defined with it at least twice. -/
theorem request_twice {name : String} (defined : name ∈ schema.definitions.request.keys) :
    2 ≤ schema.request.mentions.countP (·.isNamed name) := by
  obtain ⟨ms, accounts, mentions⟩ := p.request_accounts
  rw [p.request_classes] at defined
  obtain ⟨slot, named, twice⟩ := slot_of_definition defined
  have counted : p.requestTable.count slot = 0 + ms.countP (·.isAt slot) := accounts.counts slot
  have emitted := Mention.countP_isNamed named ms
  rw [mentions.countP_eq, List.countP_append]
  omega

/-- What is emitted of a class and what has given way of it are together what was counted. -/
theorem balance {ledger : List Mention} (gaveWay : p.GaveWay ledger) {slot : Slot} {name : String}
    (named : (p.responseTable.finalize graph stage).nameOf slot = some name) :
    (schema.responses.flatMap Response.mentions).countP (·.isNamed name) +
        ledger.countP (·.isAt slot) =
      p.responseTable.count slot +
        (schema.responses.flatMap Response.mentions).countP (·.isFormat name) := by
  obtain ⟨_, _, run⟩ := gaveWay
  obtain ⟨ms, same, fills⟩ := (Converter.responsesLedger_traces operation).fills _ _ _ run
  change (ownMentions p.responses ++ ledger).Perm ms at same
  have counted : p.responseTable.count slot = 0 + ms.countP (·.isAt slot) :=
    fills.accounts.counts slot
  rw [← same.countP_eq, List.countP_append, ownMentions, Mention.countP_isAt_own] at counted
  have emitted := Mention.countP_isNamed named (p.responses.flatMap Response.mentions)
  have responses : schema.responses.flatMap Response.mentions =
      (p.responses.flatMap Response.mentions).map
        (·.resolve (p.responseTable.finalize graph stage).nameOf) := by
    rw [p.responses_named]
    simp only [List.flatMap_map, Response.mentions_resolve, List.map_flatMap]
  rw [responses]
  omega

theorem mem_response_keys {name : String} : name ∈ schema.definitions.responses.keys ↔
    ∃ slot, (p.responseTable.finalize graph stage).nameOf slot = some name := by
  rw [p.response_classes]
  constructor
  · intro defined
    obtain ⟨slot, named, -⟩ := slot_of_definition defined
    exact ⟨slot, named⟩
  · rintro ⟨slot, named⟩
    obtain ⟨_, accounts, -⟩ := p.responses_accounts
    obtain ⟨_, -, -, defined⟩ := accounts.definition_of_name named
    exact OrderedMap.isSome_get?_iff.mp (Option.isSome_of_eq_some defined)

theorem responses_twice_iff {ledger : List Mention} (gaveWay : p.GaveWay ledger) :
    (∀ name ∈ schema.definitions.responses.keys,
      2 ≤ (schema.responses.flatMap Response.mentions).countP (·.isNamed name)) ↔
    ∀ slot name, (p.responseTable.finalize graph stage).nameOf slot = some name →
      ledger.countP (·.isAt slot) + 2 ≤ p.responseTable.count slot +
        (schema.responses.flatMap Response.mentions).countP (·.isFormat name) := by
  constructor
  · intro twice slot name named
    have := twice name (p.mem_response_keys.mpr ⟨slot, named⟩)
    have := p.balance gaveWay named
    omega
  · intro left name defined
    obtain ⟨slot, named⟩ := p.mem_response_keys.mp defined
    have := left slot name named
    have := p.balance gaveWay named
    omega

end Passes

/-- Whatever is defined with a request is mentioned there at least twice. With the responses this
is so exactly if, of what a class was counted, no more than all but two has given way to successes
of other types, where references to a format that has the name of the class count too. Nothing gives
way if all successes are declared with one type. -/
theorem Assembler.defined_is_mentioned_twice_iff (graph : TypeGraph) (operation : Operation)
    (operationId : String) (stage : Stage) {a : Assembler} {schema : OperationSchema}
    {ds ds₁ ds₂ ds' : Diagnostics}
    (prepared : Yields (ofOperation graph operation operationId) ds a ds₁)
    (assembled : Yields (a.assemble stage) ds₂ schema ds') :
    (∀ name ∈ schema.definitions.request.keys,
      2 ≤ schema.request.mentions.countP (·.isNamed name)) ∧
    (∃ (p : Passes graph operation operationId stage schema) (ledger : List Mention),
      p.GaveWay ledger) ∧
    (∀ (p : Passes graph operation operationId stage schema) (ledger : List Mention),
      p.GaveWay ledger →
      ((∀ name ∈ schema.definitions.responses.keys,
        2 ≤ (schema.responses.flatMap Response.mentions).countP (·.isNamed name)) ↔
      ∀ slot name, (p.responseTable.finalize graph stage).nameOf slot = some name →
        ledger.countP (·.isAt slot) + 2 ≤ p.responseTable.count slot +
          (schema.responses.flatMap Response.mentions).countP (·.isFormat name))) ∧
    ((successTypes operation.responses).Pairwise (sameType · ·) →
      ∀ name ∈ schema.definitions.responses.keys,
        2 ≤ (schema.responses.flatMap Response.mentions).countP (·.isNamed name)) := by
  obtain ⟨p⟩ := passes_of_assembled prepared assembled
  obtain ⟨ledger, gaveWay⟩ := p.exists_gaveWay
  refine ⟨fun _ => p.request_twice, ⟨p, ledger, gaveWay⟩, fun p _ => p.responses_twice_iff, ?_⟩
  intro agree
  rw [p.responses_twice_iff gaveWay]
  obtain ⟨_, _, run⟩ := gaveWay
  obtain rfl := Converter.responsesLedger_agreeing run agree
  intro slot name named
  have : 1 < p.responseTable.count slot :=
    (isSome_nameOf_finalize graph stage).mp (Option.isSome_of_eq_some named)
  rw [List.countP_nil]
  omega

namespace Assembler

/-- An operation that succeeds with a node, and again with the given type. -/
def twoSuccesses (type : String) : Operation :=
  { listNodes with
    responses := [{ status := some (.code 200), type := some (.named "Node") },
      { status := some (.code 201), type := some (.named type) }] }

/-- Two successes of one type: the node is built once, and it mentions itself. -/
theorem agreeing_nodes_mentioned_twice : ∃ a schema ds ds',
    Yields (ofOperation Converter.nodes.graph (twoSuccesses "Node") "list") [] a ds ∧
      Yields (a.assemble .read) ds schema ds' ∧
      "Node" ∈ schema.definitions.responses.keys ∧
      2 ≤ (schema.responses.flatMap Response.mentions).countP (·.isNamed "Node") := by
  refine ⟨_, _, _, _, rfl, rfl, by decide, ?_⟩
  exact (defined_is_mentioned_twice_iff Converter.nodes.graph (twoSuccesses "Node") "list" .read
    rfl rfl).2.2.2 (by decide) "Node" (by decide)

/-- Two successes of different types: the node has given way, but is still defined. -/
theorem superseded_node_unmentioned : ∃ a schema ds ds',
    Yields (ofOperation Converter.nodes.graph (twoSuccesses "string") "list") [] a ds ∧
      Yields (a.assemble .read) ds schema ds' ∧
      "Node" ∈ schema.definitions.responses.keys ∧
      (schema.responses.flatMap Response.mentions).countP (·.isNamed "Node") = 0 :=
  ⟨_, _, _, _, rfl, rfl, by decide, by decide⟩

end Assembler
end WireSchema
