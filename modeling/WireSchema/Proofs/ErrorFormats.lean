import WireSchema.Proofs.Reading
import WireSchema.Proofs.Threshold

/-! The formats of errors and the classes that are defined beside responses. A format is defined
elsewhere and referred to by its name. Names of classes are kept apart from each other only, so a
shared model that asks for the name of a format gets it, and errors come to refer to that model. -/
namespace WireSchema

open ConvertM ClassTable

namespace Naming

variable {name base : String} {used : List String}

/-- No base becomes the name when it is numbered. -/
def Unnumbered (name : String) : Prop := ∀ base i, base ++ toString (i : Nat) ≠ name

/-- Numbered names end with a digit. -/
theorem unnumbered_of_last {last : Char} (ends : name.toList.getLast? = some last)
    (letter : last.isDigit = false) : Unnumbered name := by
  rintro base i rfl
  have digits : (base ++ toString i).toList = base.toList ++ Nat.toDigits 10 i := by
    simp [← Nat.toList_repr]
  obtain ⟨digit, here⟩ := Option.ne_none_iff_exists'.mp
    (mt List.getLast?_eq_none_iff.mp (Nat.toDigits_ne_nil (n := i) (b := 10)))
  obtain rfl : digit = last := by simpa [digits, List.getLast?_append, here] using ends
  have := Nat.isDigit_of_mem_toDigits (by omega) (by omega) (List.mem_of_getLast? here)
  rw [letter] at this
  cases this

/-- Such a name is given out exactly if it is asked for and free. -/
theorem unique_eq_iff (unnumbered : Unnumbered name) :
    (unique base used).1 = name ↔ base = name ∧ name ∉ used := by
  unfold unique
  by_cases taken : base ∈ used
  · obtain ⟨j, eq, -⟩ := firstFree_spec base used used.length 2
    have numbered : firstFree base used used.length 2 ≠ name := eq ▸ unnumbered base j
    simp only [List.contains_iff_mem.mpr taken, if_true, numbered, false_iff]
    rintro ⟨rfl, free⟩
    exact free taken
  · have free : used.contains base = false := by simpa using taken
    simp only [free, Bool.false_eq_true, if_false]
    exact ⟨fun same => ⟨same, same ▸ taken⟩, And.left⟩

end Naming

namespace ClassTable

variable {wanted : ClassRecord → String} {used : List String} {records : List ClassRecord}
  {name : String} {i : Nat} {r : ClassRecord}

/-- A class with a name that is not numbered has asked for it. -/
theorem wanted_of_name (unnumbered : Naming.Unnumbered name)
    (named : (nameRecords wanted used records)[i]?.bind ClassRecord.name = some name) :
    ∃ r, records[i]? = some r ∧ r.isShared ∧ wanted r = name := by
  induction records generalizing used i with
  | nil => simp [nameRecords] at named
  | cons first rest ih =>
    unfold nameRecords at named
    cases i with
    | zero =>
      split at named
      · rename_i shared
        have given : (Naming.unique (wanted first) used).1 = name := by simpa using named
        exact ⟨first, rfl, shared, ((Naming.unique_eq_iff unnumbered).mp given).1⟩
      · simp at named
    | succ i =>
      split at named
      · exact ih (by simpa using named)
      · exact ih (by simpa using named)

/-- A free name that is not numbered goes to one of the shared classes that ask for it. -/
theorem name_of_wanted (unnumbered : Naming.Unnumbered name) (unused : name ∉ used)
    (known : r ∈ records) (shared : r.isShared) (wants : wanted r = name) :
    ∃ i : Nat, (nameRecords wanted used records)[i]?.bind ClassRecord.name = some name := by
  induction records generalizing used with
  | nil => cases known
  | cons first rest ih =>
    unfold nameRecords
    rcases List.mem_cons.mp known with rfl | later
    · have given := (Naming.unique_eq_iff unnumbered).mpr ⟨wants, unused⟩
      exact ⟨0, by simp [shared, given]⟩
    · split
      · by_cases given : (Naming.unique (wanted first) used).1 = name
        · exact ⟨0, by simp [given]⟩
        · have free : name ∉ (Naming.unique (wanted first) used).2 := by
            rw [Naming.unique_used]
            exact List.not_mem_cons_of_ne_of_not_mem (Ne.symm given) unused
          obtain ⟨i, named⟩ := ih free later
          exact ⟨i + 1, by simpa using named⟩
      · obtain ⟨i, named⟩ := ih unused later
        exact ⟨i + 1, by simpa using named⟩

end ClassTable

namespace ErrorBody

def formats : List String := ["MgmtErrorFormat", "ODataV4Format"]

theorem mem_formats_of_names {names : List String} {format : String}
    (found : formatOfNames names = some format) : format ∈ formats := by
  unfold formatOfNames at found
  split at found
  · split at found
    · cases found
      exact List.mem_cons_self
    · split at found
      · cases found
        exact List.mem_cons_of_mem _ List.mem_cons_self
      · cases found
  · cases found

theorem mem_formats {graph : TypeGraph} {id : TypeId} {format : String}
    (found : format? graph id = .ok (some format)) : format ∈ formats := by
  have within (fuel : Nat) (id : TypeId)
      (found : formatWithin graph fuel id = .ok (some format)) : format ∈ formats := by
    induction fuel generalizing id with
    | zero => cases found
    | succ fuel ih =>
      unfold formatWithin at found
      cases read : graph.payload id .read with
      | error e => simp [read, bind, Except.bind] at found
      | ok payload =>
        simp only [read, bind, Except.bind] at found
        split at found
        · split at found
          · split at found
            · split at found
              · cases found
              · exact ih _ found
            · cases found
          · exact mem_formats_of_names (Except.ok.inj found)
        · exact mem_formats_of_names (Except.ok.inj found)
  exact within _ id found

theorem unnumbered_of_mem {format : String} (known : format ∈ formats) :
    Naming.Unnumbered format := by
  obtain rfl | rfl : format = "MgmtErrorFormat" ∨ format = "ODataV4Format" := by
    simpa [formats] using known
  · exact Naming.unnumbered_of_last (by decide) (by decide : 't'.isDigit = false)
  · exact Naming.unnumbered_of_last (by decide) (by decide : 't'.isDigit = false)

end ErrorBody

namespace Passes

variable {graph : TypeGraph} {operation : Operation} {operationId : String} {stage : Stage}
  {schema : OperationSchema} (p : Passes graph operation operationId stage schema)

theorem response_wants {r : ClassRecord} (known : r ∈ p.responseTable.records) :
    p.responseTable.wantedName graph stage r = Naming.definitionBase graph r.type := by
  obtain ⟨_, _, run⟩ := p.responses_run
  obtain ⟨read, distinct⟩ := Converter.responses_read _ run
  exact wantedName_of_read read distinct graph stage known

theorem record_of_response_key {name : String} (unnumbered : Naming.Unnumbered name)
    (defined : name ∈ schema.definitions.responses.keys) :
    ∃ slot r, p.responseTable.record? slot = some r ∧ r.isShared ∧
      Naming.definitionBase graph r.type = name ∧
      (p.responseTable.finalize graph stage).nameOf slot = some name := by
  obtain ⟨slot, named⟩ := p.mem_response_keys.mp defined
  obtain ⟨r, known, shared, wants⟩ := wanted_of_name unnumbered named
  rw [p.response_wants (List.mem_of_getElem? known)] at wants
  exact ⟨slot, r, known, shared, wants, named⟩

theorem mem_response_keys_iff {name : String} (unnumbered : Naming.Unnumbered name) :
    name ∈ schema.definitions.responses.keys ↔ ∃ r ∈ p.responseTable.records,
      r.isShared ∧ Naming.definitionBase graph r.type = name := by
  constructor
  · intro defined
    obtain ⟨slot, r, known, shared, wants, -⟩ := p.record_of_response_key unnumbered defined
    exact ⟨r, List.mem_of_getElem? known, shared, wants⟩
  · rintro ⟨r, known, shared, wants⟩
    rw [← p.response_wants known] at wants
    obtain ⟨slot, named⟩ := name_of_wanted unnumbered List.not_mem_nil known shared wants
    exact p.mem_response_keys.mpr ⟨slot, named⟩

/-- What stands under a name that is not numbered has been built for a model of that name. -/
theorem definedFor_of_response_key {name : String} (unnumbered : Naming.Unnumbered name)
    (defined : name ∈ schema.definitions.responses.keys) :
    ∃ id v, Naming.definitionBase graph id = name ∧ DefinedFor ⟨graph, operationId⟩
      p.responseTable stage schema.definitions.responses (id, v) name := by
  obtain ⟨slot, r, known, -, wants, named⟩ := p.record_of_response_key unnumbered defined
  obtain ⟨_, accounts, -⟩ := p.responses_accounts
  have key : p.responseTable.keys[slot]? = some (r.type, r.visibility) := by
    simp [keys_getElem?, known]
  refine ⟨r.type, r.visibility, wants, ?_⟩
  rw [p.response_classes]
  exact accounts.definedFor key named

include p in
/-- All that the responses refer to elsewhere are formats of errors. -/
theorem external_formats {m : Mention} (emitted : m ∈ schema.responses.flatMap Response.mentions)
    {name : String} (target : m.target = .external name) : name ∈ ErrorBody.formats := by
  obtain ⟨_, accounts, kept⟩ := p.responses_accounts
  rcases kept m emitted with ⟨id, format, known, rfl⟩ | ⟨m, built, rfl⟩
  · obtain rfl : format = name := ClassRef.external.inj target
    exact ErrorBody.mem_formats known
  · obtain ⟨slot, own⟩ := accounts.shared m built
    rw [Mention.target_resolve _ own] at target
    cases target

end Passes

/-- The responses of an operation refer to nothing elsewhere but the formats of errors, and a format
is defined beside them exactly if a model that the pass has met at least twice is named like it. Its
definition is then what was built for such a model. So no format is captured exactly if no shared
model has the name of one. -/
theorem Assembler.formats_are_uncaptured_iff (graph : TypeGraph) (operation : Operation)
    (operationId : String) (stage : Stage) {a : Assembler} {schema : OperationSchema}
    {ds ds₁ ds₂ ds' : Diagnostics}
    (prepared : Yields (ofOperation graph operation operationId) ds a ds₁)
    (assembled : Yields (a.assemble stage) ds₂ schema ds') :
    ∃ p : Passes graph operation operationId stage schema,
      ((∀ format ∈ ErrorBody.formats, format ∉ schema.definitions.responses.keys) ↔
        ∀ r ∈ p.responseTable.records, r.isShared →
          Naming.definitionBase graph r.type ∉ ErrorBody.formats) ∧
      (∀ m ∈ schema.responses.flatMap Response.mentions, ∀ name, m.target = .external name →
        name ∈ ErrorBody.formats) ∧
      ∀ format ∈ ErrorBody.formats, format ∈ schema.definitions.responses.keys →
        ∃ id v, Naming.definitionBase graph id = format ∧ DefinedFor ⟨graph, operationId⟩
          p.responseTable stage schema.definitions.responses (id, v) format := by
  obtain ⟨p⟩ := passes_of_assembled prepared assembled
  refine ⟨p, ⟨?_, ?_⟩, fun m emitted name => p.external_formats emitted, fun format known =>
    p.definedFor_of_response_key (ErrorBody.unnumbered_of_mem known)⟩
  · intro uncaptured r known shared reserved
    exact uncaptured _ reserved
      ((p.mem_response_keys_iff (ErrorBody.unnumbered_of_mem reserved)).mpr ⟨r, known, shared, rfl⟩)
  · intro apart format reserved defined
    obtain ⟨r, known, shared, rfl⟩ :=
      (p.mem_response_keys_iff (ErrorBody.unnumbered_of_mem reserved)).mp defined
    exact apart r known shared reserved

namespace Assembler

/-- The responses share a class of nodes, which is no format. -/
theorem node_is_no_format : ∃ a schema ds ds',
    Yields (ofOperation Converter.nodes.graph (twoSuccesses "Node") "list") [] a ds ∧
      Yields (a.assemble .read) ds schema ds' ∧ "Node" ∈ schema.definitions.responses.keys ∧
      ∃ p : Passes Converter.nodes.graph (twoSuccesses "Node") "list" .read schema,
        ∀ r ∈ p.responseTable.records, r.isShared →
          Naming.definitionBase Converter.nodes.graph r.type ∉ ErrorBody.formats := by
  obtain ⟨a, schema, ds, ds', prepared, assembled, keys⟩ : ∃ a schema ds ds',
      Yields (ofOperation Converter.nodes.graph (twoSuccesses "Node") "list") [] a ds ∧
        Yields (a.assemble .read) ds schema ds' ∧
        schema.definitions.responses.keys = ["Node"] := ⟨_, _, _, _, rfl, rfl, by decide⟩
  obtain ⟨p, uncaptured, -⟩ := formats_are_uncaptured_iff Converter.nodes.graph
    (twoSuccesses "Node") "list" .read prepared assembled
  refine ⟨a, schema, ds, ds', prepared, assembled, by simp [keys], p, uncaptured.mp ?_⟩
  rw [keys]
  decide

/-- A service that has a model with the name of a format, and an error of that format. -/
def catalogue : TypeGraph where
  version := "1"
  types := .ofEntries [
    ("MgmtErrorFormat", .model {
      name := "MgmtErrorFormat"
      properties :=
        .ofEntries [("inner", { type := .named "MgmtErrorFormat", optional := true })] }),
    ("Failure", .model {
      name := "Failure"
      properties := .ofEntries [
        ("code", { type := .named "string" }),
        ("message", { type := .named "string" }),
        ("additionalInfo", { type := .named "string", optional := true })] })]

def getFormats : Operation where
  name := "get"
  verb := .get
  path := "/formats"
  responses := [
    { status := some (.code 200), type := some (.named "MgmtErrorFormat") },
    { status := some (.other "default"), type := some (.named "Failure") }]

theorem format_captured : ∃ a schema ds ds',
    Yields (ofOperation catalogue getFormats "get") [] a ds ∧
      Yields (a.assemble .read) ds schema ds' ∧
      "MgmtErrorFormat" ∈ schema.definitions.responses.keys ∧
      0 < (schema.responses.flatMap Response.mentions).countP (·.isFormat "MgmtErrorFormat") := by
  let both : OperationM OperationSchema := do
    (← ofOperation catalogue getFormats "get").assemble .read
  obtain ⟨schema, ds', run, captured⟩ := exists_yields_of (x := both) (g := [])
    (p := fun schema => "MgmtErrorFormat" ∈ schema.definitions.responses.keys ∧
      0 < (schema.responses.flatMap Response.mentions).countP (·.isFormat "MgmtErrorFormat"))
    (by decide +kernel)
  obtain ⟨a, ds, prepared, assembled⟩ := yields_bind.mp run
  exact ⟨a, schema, ds, ds', prepared, assembled, captured⟩

end Assembler
end WireSchema
