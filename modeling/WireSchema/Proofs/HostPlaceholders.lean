import WireSchema.Proofs.Constants
import WireSchema.Proofs.Reporting
import WireSchema.Proofs.Silence

/-! Placeholders in the address of a host. Each of them should become a parameter or be reported.
One that is bound to a type that gives nothing without a word is lost: parameters of the host are
always required, but nothing looks after those that have no form on the wire. -/
namespace WireSchema

open ConvertM Converter

namespace Server

/-- The name stands between the first open brace of a text and the first closed one behind it, or it
is a placeholder of what follows these. -/
inductive IsPlaceholder (name : List Char) : List Char → Prop
  | first {before after : List Char} : '{' ∉ before → '}' ∉ name →
      IsPlaceholder name (before ++ '{' :: (name ++ '}' :: after))
  | later {before other after : List Char} : '{' ∉ before → '}' ∉ other →
      IsPlaceholder name after → IsPlaceholder name (before ++ '{' :: (other ++ '}' :: after))

variable {name seen before s : List Char}

theorem placeholdersFrom_skip (unopened : '{' ∉ before) :
    placeholdersFrom none (before ++ s) = placeholdersFrom none s := by
  induction before with
  | nil => rfl
  | cons c before ih =>
    obtain ⟨other, unopened⟩ := not_or.mp (mt List.mem_cons.mpr unopened)
    simp [placeholdersFrom, Ne.symm other, ih unopened]

theorem placeholdersFrom_close (unclosed : '}' ∉ name) :
    placeholdersFrom (some seen) (name ++ '}' :: s) =
      (seen.reverse ++ name) :: placeholdersFrom none s := by
  induction name generalizing seen with
  | nil => simp [placeholdersFrom]
  | cons c name ih =>
    obtain ⟨other, unclosed⟩ := not_or.mp (mt List.mem_cons.mpr unclosed)
    simp [placeholdersFrom, Ne.symm other, ih unclosed]

theorem placeholdersFrom_braced (unopened : '{' ∉ before) (unclosed : '}' ∉ name) :
    placeholdersFrom none (before ++ '{' :: (name ++ '}' :: s)) =
      name :: placeholdersFrom none s := by
  rw [placeholdersFrom_skip unopened]
  simp [placeholdersFrom, placeholdersFrom_close unclosed]

theorem IsPlaceholder.cons {c : Char} (other : c ≠ '{') (inside : IsPlaceholder name s) :
    IsPlaceholder name (c :: s) := by
  cases inside with
  | first unopened unclosed =>
    rw [← List.cons_append]
    exact .first (List.not_mem_cons_of_ne_of_not_mem (Ne.symm other) unopened) unclosed
  | later unopened unclosed behind =>
    rw [← List.cons_append]
    exact .later (List.not_mem_cons_of_ne_of_not_mem (Ne.symm other) unopened) unclosed behind

def IsPlaceholderFrom (name : List Char) : Option (List Char) → List Char → Prop
  | none, s => IsPlaceholder name s
  | some seen, s => ∃ own after, s = own ++ '}' :: after ∧ '}' ∉ own ∧
      (name = seen.reverse ++ own ∨ IsPlaceholder name after)

theorem isPlaceholderFrom_of_mem {pending : Option (List Char)}
    (found : name ∈ placeholdersFrom pending s) : IsPlaceholderFrom name pending s := by
  induction s generalizing pending with
  | nil => cases pending <;> cases found
  | cons c rest ih =>
    cases pending with
    | none =>
      by_cases opened : c = '{'
      · subst opened
        obtain ⟨own, after, rfl, unclosed, here | behind⟩ := ih found
        · obtain rfl : name = own := here
          exact @IsPlaceholder.first name [] after List.not_mem_nil unclosed
        · exact @IsPlaceholder.later name [] own after List.not_mem_nil unclosed behind
      · have later : name ∈ placeholdersFrom none rest := by
          simpa [placeholdersFrom, opened] using found
        exact IsPlaceholder.cons opened (ih later)
    | some seen =>
      by_cases closed : c = '}'
      · subst closed
        rcases List.mem_cons.mp found with rfl | later
        · exact ⟨[], rest, rfl, List.not_mem_nil, .inl (List.append_nil _).symm⟩
        · exact ⟨[], rest, rfl, List.not_mem_nil, .inr (ih later)⟩
      · have later : name ∈ placeholdersFrom (some (c :: seen)) rest := by
          simpa [placeholdersFrom, closed] using found
        obtain ⟨own, after, rfl, unclosed, named⟩ := ih later
        refine ⟨c :: own, after, rfl,
          List.not_mem_cons_of_ne_of_not_mem (Ne.symm closed) unclosed, ?_⟩
        simpa using named

theorem mem_placeholdersFrom_iff : name ∈ placeholdersFrom none s ↔ IsPlaceholder name s := by
  constructor
  · exact isPlaceholderFrom_of_mem
  · intro inside
    induction inside with
    | first unopened unclosed =>
      rw [placeholdersFrom_braced unopened unclosed]
      exact List.mem_cons_self
    | later unopened unclosed behind ih =>
      rw [placeholdersFrom_braced unopened unclosed]
      exact List.mem_cons_of_mem _ ih

theorem mem_placeholders_iff {server : Server} {name : String} :
    name ∈ server.placeholders ↔ IsPlaceholder name.toList server.url.toList := by
  rw [← mem_placeholdersFrom_iff, placeholders, List.mem_map]
  constructor
  · rintro ⟨found, member, rfl⟩
    simpa using member
  · intro member
    exact ⟨_, member, by simp⟩

end Server

namespace Converter

variable {c : Converter} {server : Server} {g g' : Gathered}

def unbound (c : Converter) (name : String) : Diagnostic :=
  ⟨.missingHostParameter, "host template parameter `" ++ name ++ "` has no binding", c.target⟩

/-- What is reported if a parameter of the host is converted alone. -/
def hostReports (c : Converter) (decl : HostParameter) : Diagnostics :=
  (outcome (c.convert decl.type { visibility := .query } []) {}).2.diagnostics

/-- A report that is about the host parameter of a name: that there is none, or something that the
conversion of its type has to say. -/
inductive TellsOf (c : Converter) (server : Server) (name : String) (d : Diagnostic) : Prop
  | unbound (absent : server.parameters.get? name = none) (same : d = c.unbound name)
  | bound {decl : HostParameter} (known : server.parameters.get? name = some decl)
      (said : d ∈ c.hostReports decl)

/-- Whether a parameter of the host has no form. -/
def lacksHost (c : Converter) (decl : HostParameter) : Bool :=
  c.lacksForm decl.type { visibility := .query } []

/-- A parameter of the host is lost exactly if its type comes to one that gives nothing without a
word. -/
theorem lost_iff {decl : HostParameter} {a : Option Schema}
    (run : Yields (c.convert decl.type { visibility := .query } []) g a g') :
    c.lacksHost decl ∧ c.hostReports decl = [] ↔
      ∃ last, LeadsTo c.graph decl.type last ∧ c.graph.IsSilent last := by
  have form : c.lacksHost decl = a.isNone := lacksForm_of_yields run
  constructor
  · rintro ⟨lacks, unsaid⟩
    obtain rfl : a = none := by simpa [form] using lacks
    have alone : Always _ none (c.hostReports decl) := always_of_none run
    rw [unsaid] at alone
    exact (silent_iff (alone {})).1.mp ⟨rfl, rfl⟩
  · rintro ⟨last, leads, silent⟩
    obtain ⟨rfl, -⟩ := typesWithin_silent leads silent run
    obtain ⟨-, same⟩ := typesWithin_silent leads silent (always_of_none run {})
    exact ⟨form, congrArg Gathered.diagnostics same⟩

structure HostTold (c : Converter) (entries : List (String × HostParameter))
    (reports : Diagnostics) : Prop where
  converted : ∀ e ∈ entries, ∃ g a g',
    Yields (c.convert e.2.type { visibility := .query } []) g a g'
  told : ∀ e ∈ entries, c.lacksHost e.2 → c.hostReports e.2 ⊆ reports

theorem hostParameters_told {entries : List (String × HostParameter)} {host : List NamedSchema}
    (run : Yields (ConvertM.keep (fun e => c.hostParameter e.1 e.2) entries) g host g') :
    ∃ reports, g'.diagnostics = g.diagnostics ++ reports ∧ c.HostTold entries reports := by
  induction entries generalizing g host with
  | nil =>
    obtain ⟨-, rfl⟩ := yields_pure.mp run
    exact ⟨[], by simp, by simp, by simp⟩
  | cons e rest ih =>
    obtain ⟨s, g₁, here, run⟩ := yields_bind.mp run
    obtain ⟨host', g₂, others, eq⟩ := yields_bind.mp run
    obtain ⟨-, rfl⟩ := yields_pure.mp eq
    obtain ⟨a, g₃, converted, eq⟩ := yields_bind.mp here
    obtain rfl : g₃ = g₁ := by
      cases a <;> exact (yields_pure.mp eq).2
    obtain ⟨-, own, grown, -⟩ := (c.convert_onTypes ..).runs _ _ _ converted
    obtain ⟨reports, grown', all⟩ := ih others
    refine ⟨own ++ reports, by rw [grown', grown, List.append_assoc],
      List.forall_mem_cons.mpr ⟨⟨_, _, _, converted⟩, all.converted⟩,
      List.forall_mem_cons.mpr ⟨fun lacks => ?_, fun e member lacks d said =>
        List.mem_append_right _ (all.told e member lacks said)⟩⟩
    obtain rfl : a = none := by
      simpa [lacksHost, lacksForm_of_yields converted] using lacks
    obtain ⟨-, same⟩ := (always_of_none converted).unique converted
    rw [same] at grown
    have told : c.hostReports e.2 = own := List.append_cancel_left grown
    exact told ▸ List.subset_append_left _ _

def lookupReports (c : Converter) (server : Server) (name : String) : Diagnostics :=
  if !server.parameters.contains name then [c.unbound name] else []

theorem mem_lookupReports {name : String} {d : Diagnostic} : d ∈ c.lookupReports server name ↔
    server.parameters.get? name = none ∧ d = c.unbound name := by
  unfold lookupReports OrderedMap.contains
  cases server.parameters.get? name <;> simp

theorem hostParameters_run (hosted : c.graph.service.server = some server) {host : List NamedSchema}
    (run : Yields c.hostParameters g host g') : ∃ reports, g'.diagnostics = g.diagnostics ++
      (server.placeholders.flatMap (c.lookupReports server) ++ reports) ∧
      c.HostTold server.parameters.entries reports := by
  have each (name : String) : Always (do
      if !server.parameters.contains name then
        c.report .missingHostParameter
          ("host template parameter `" ++ name ++ "` has no binding")
      return ForInStep.yield PUnit.unit) (.yield ()) (c.lookupReports server name) := by
    unfold lookupReports
    split
    · exact .map (.report c _ _) fun _ => ForInStep.yield ()
    · exact .pure _
  unfold hostParameters at run
  rw [hosted] at run
  obtain ⟨_, g₁, looked, run⟩ := yields_bind.mp run
  obtain ⟨-, rfl⟩ := (Always.forIn each _).unique looked
  obtain ⟨reports, grown, told⟩ := hostParameters_told run
  exact ⟨reports, by rw [grown, List.append_assoc], told⟩

/-- A host parameter is emitted once if it is bound to a type that has a form, and else not at
all. -/
theorem countP_host {host : List NamedSchema} (hosted : c.graph.service.server = some server)
    (names : host.map (·.name) = c.hostNames) (name : String) :
    host.countP (·.name = name) = 1 ↔
      ∃ decl, server.parameters.get? name = some decl ∧ c.lacksHost decl = false := by
  have listed : c.hostNames =
      (server.parameters.entries.filter fun e => !c.lacksHost e.2).map Prod.fst := by
    simp only [hostNames, hosted, lacksHost]
  have distinct : c.hostNames.Nodup := by
    rw [listed]
    exact server.parameters.nodup.sublist (List.filter_sublist.map _)
  have counted : host.countP (·.name = name) = c.hostNames.count name := by
    rw [← names, List.count, List.countP_map]
    rfl
  have member : name ∈ c.hostNames ↔
      ∃ decl, server.parameters.get? name = some decl ∧ c.lacksHost decl = false := by
    simp only [listed, List.mem_map, List.mem_filter, Prod.exists, Bool.not_eq_true']
    constructor
    · rintro ⟨_, decl, ⟨bound, form⟩, rfl⟩
      exact ⟨decl, OrderedMap.get?_of_mem bound, form⟩
    · rintro ⟨decl, found, form⟩
      exact ⟨name, decl, ⟨OrderedMap.mem_of_get? found, form⟩, rfl⟩
  rw [counted, distinct.count, ← member]
  split <;> simp_all

/-- A parameter is emitted or told of, unless its conversion gives nothing and says nothing. -/
theorem accounted_iff {reports : Diagnostics} (told : c.HostTold server.parameters.entries reports)
    {name : String} (known : name ∈ server.placeholders ∨ name ∈ server.parameters.keys) :
    ((∃ decl, server.parameters.get? name = some decl ∧ c.lacksHost decl = false) ∨
      ∃ d ∈ server.placeholders.flatMap (c.lookupReports server) ++ reports,
        c.TellsOf server name d) ↔
      ¬ ∃ decl, server.parameters.get? name = some decl ∧
        ∃ last, LeadsTo c.graph decl.type last ∧ c.graph.IsSilent last := by
  cases found : server.parameters.get? name with
  | none =>
    have placeholder : name ∈ server.placeholders := known.resolve_right fun bound => by
      simp [← OrderedMap.isSome_get?_iff, found] at bound
    have reported : c.unbound name ∈ server.placeholders.flatMap (c.lookupReports server) :=
      List.mem_flatMap.mpr ⟨name, placeholder, mem_lookupReports.mpr ⟨found, rfl⟩⟩
    have told : c.TellsOf server name (c.unbound name) := .unbound found rfl
    simpa using ⟨_, .inl (List.mem_flatMap.mp reported), told⟩
  | some decl =>
    have entry := OrderedMap.mem_of_get? found
    obtain ⟨_, _, _, converted⟩ := told.converted _ entry
    simp only [Option.some.injEq, exists_eq_left', ← lost_iff converted]
    constructor
    · rintro (form | ⟨d, -, ⟨absent, -⟩ | ⟨bound, said⟩⟩) ⟨lacks, unsaid⟩
      · simp [form] at lacks
      · simp [found] at absent
      · obtain rfl := Option.some.inj (found.symm.trans bound)
        simp [unsaid] at said
    · intro kept
      by_cases lacks : c.lacksHost decl
      · obtain ⟨d, said⟩ := List.exists_mem_of_ne_nil _ fun unsaid => kept ⟨lacks, unsaid⟩
        exact .inr ⟨d, List.mem_append_right _ (told.told _ entry lacks said), .bound found said⟩
      · exact .inl (by simpa using lacks)

end Converter

namespace Assembler

/-- Each placeholder in the address of a host and each parameter that is bound there has one
parameter that is emitted or a report about it, unless it is bound to a type that gives nothing
without a word. There it is lost. -/
theorem placeholders_are_accounted_iff {graph : TypeGraph} {operation : Operation}
    {operationId : String} {server : Server} {a : Assembler} {ds ds' : Diagnostics}
    (hosted : graph.service.server = some server)
    (prepared : Yields (ofOperation graph operation operationId) ds a ds') :
    ∃ reports, ds' = ds ++ reports ∧ ∀ name,
      Server.IsPlaceholder name.toList server.url.toList ∨ name ∈ server.parameters.keys →
      ((a.host.countP (·.name = name) = 1 ∨
          ∃ d ∈ reports, Converter.TellsOf ⟨graph, operationId⟩ server name d) ↔
        ¬ ∃ decl, server.parameters.get? name = some decl ∧
          ∃ last, LeadsTo graph decl.type last ∧ graph.IsSilent last) := by
  obtain ⟨⟨host, table⟩, _, pass, eq⟩ := yields_bind.mp prepared
  obtain ⟨rfl, rfl⟩ := yields_pure.mp eq
  have run := yields_asPass.mp pass
  obtain ⟨reports, grown, told⟩ := Converter.hostParameters_run hosted run
  have named := (Converter.hostParameters_give.known _ _ _ run).1
  refine ⟨_, grown, fun name known => ?_⟩
  have emitted : (host.map (·.resolve (table.finalize graph .read).nameOf)).countP (·.name = name) =
      host.countP (·.name = name) := by
    rw [List.countP_map]
    simp only [Function.comp_def, NamedSchema.name_resolve]
  rw [emitted, Converter.countP_host hosted named]
  exact Converter.accounted_iff told (known.imp_left Server.mem_placeholders_iff.mpr)

/-- A host with a placeholder that is bound to a text, and one that is not bound. -/
def gatewayServer : Server where
  url := "https://{region}.{zone}"
  parameters := .ofEntries [("region", { type := .named "string" })]

def gateway : TypeGraph where
  version := "1"
  service := { server := some gatewayServer }

theorem gateway_accounted : ∃ a reports,
    Yields (ofOperation gateway listWidgets "list") [] a reports ∧
      ∀ name ∈ ["region", "zone"], a.host.countP (·.name = name) = 1 ∨
        ∃ d ∈ reports, Converter.TellsOf ⟨gateway, "list"⟩ gatewayServer name d := by
  obtain ⟨a, ds, prepared⟩ :=
    exists_yields (x := ofOperation gateway listWidgets "list") (g := []) (by decide +kernel)
  obtain ⟨_, rfl, accounted⟩ := placeholders_are_accounted_iff rfl prepared
  have placeholders : gatewayServer.placeholders = ["region", "zone"] := by decide +kernel
  have entries : gatewayServer.parameters.entries = [("region", { type := .named "string" })] := rfl
  refine ⟨a, _, prepared, fun name member => (accounted name ?_).mpr ?_⟩
  · exact .inl (Server.mem_placeholders_iff.mp (placeholders ▸ member))
  · rintro ⟨decl, found, last, leads, silent⟩
    obtain ⟨-, rfl⟩ : name = "region" ∧ decl = { type := .named "string" } := by
      simpa [entries] using OrderedMap.mem_of_get? found
    cases leads with
    | here =>
      rcases silent with (never | void) | ⟨id, union, mixture⟩
      · cases never
      · cases void
      · cases mixture.resolved
    | down down _ => cases down with
      | variant here _ => cases here
      | link here _ _ => cases here

/-- A host whose one placeholder is bound to a type without values. -/
def voidServer : Server where
  url := "https://{endpoint}"
  parameters := .ofEntries [("endpoint", { type := .named "void" })]

def voidService : TypeGraph where
  version := "1"
  service := { server := some voidServer }

theorem endpoint_lost : ∃ a, Yields (ofOperation voidService listWidgets "list") [] a [] ∧
    "endpoint" ∈ voidServer.placeholders ∧ "endpoint" ∈ voidServer.parameters.keys ∧
      a.host.countP (·.name = "endpoint") = 0 := by
  obtain ⟨a, ds, prepared, lost⟩ := exists_yields_of
    (x := ofOperation voidService listWidgets "list") (g := [])
    (p := fun a => a.host.countP (·.name = "endpoint") = 0) (by decide +kernel)
  have unsaid : (outcome (ofOperation voidService listWidgets "list") []).2 = [] := by
    decide +kernel
  obtain rfl : ds = [] := by rwa [show outcome _ _ = _ from prepared] at unsaid
  exact ⟨a, prepared, by decide +kernel, by decide, lost⟩

end Assembler
end WireSchema
