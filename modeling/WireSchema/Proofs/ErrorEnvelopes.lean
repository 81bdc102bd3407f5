import Mathlib.Data.Fintype.EquivFin
import WireSchema.ErrorBody
import WireSchema.Proofs.Additions
import WireSchema.Proofs.Ancestry

/-! How errors are recognised. What counts are the names of the properties that are left when all
wrappers are taken off: neither how many wrappers there are, nor which model of a hierarchy declares
a property, nor what is hidden where errors are read. -/
namespace WireSchema.ErrorBody

open Relation TypeGraph

variable {graph graph' : TypeGraph} {id outer inner next : TypeId} {model : ModelType}
  {type : TypeRef} {payload : List EffectiveProperty} {names names' : List String} {fuel : Nat}

/-- The names are allowed ones, and those that are required are among them. -/
structure Fits (required allowed names : List String) : Prop where
  complete : ∀ name ∈ required, name ∈ names
  within : ∀ name ∈ names, name ∈ allowed

theorem formatOfNames_eq_management_iff : formatOfNames names = some "MgmtErrorFormat" ↔
    Fits ["code", "message", "additionalinfo"]
      ["code", "message", "target", "details", "additionalinfo"] names := by
  constructor
  · intro found
    unfold formatOfNames at found
    split at found
    · rename_i basic
      split at found
      · rename_i full
        simp only [Bool.and_eq_true, List.contains_iff_mem, List.all_eq_true] at basic full
        exact ⟨by simp [basic, full], full.2⟩
      · split at found <;> simp at found
    · cases found
  · rintro ⟨complete, within⟩
    simp only [List.forall_mem_cons] at complete
    obtain ⟨code, message, additional, -⟩ := complete
    have all : names.all managementFields.contains := by
      simpa [managementFields] using within
    simp [formatOfNames, code, message, additional, all]

theorem formatOfNames_eq_odata_iff : formatOfNames names = some "ODataV4Format" ↔
    Fits ["code", "message"] ["code", "message", "target", "details", "innererror"] names := by
  constructor
  · intro found
    unfold formatOfNames at found
    split at found
    · rename_i basic
      split at found
      · simp at found
      · split at found
        · rename_i all
          simp only [Bool.and_eq_true, List.contains_iff_mem, List.all_eq_true] at basic all
          exact ⟨by simp [basic], all⟩
        · cases found
    · cases found
  · rintro ⟨complete, within⟩
    simp only [List.forall_mem_cons] at complete
    obtain ⟨code, message, -⟩ := complete
    have additional : "additionalinfo" ∉ names := fun named =>
      absurd (within _ named) (by decide)
    have all : names.all odataFields.contains := by simpa [odataFields] using within
    simp [formatOfNames, code, message, additional, all]

theorem formatOfNames_eq_none_iff : formatOfNames names = none ↔
    ¬ Fits ["code", "message", "additionalinfo"]
      ["code", "message", "target", "details", "additionalinfo"] names ∧
    ¬ Fits ["code", "message"] ["code", "message", "target", "details", "innererror"] names := by
  rw [← formatOfNames_eq_management_iff, ← formatOfNames_eq_odata_iff]
  unfold formatOfNames
  grind

/-- Neither order nor repetition of names matters. -/
theorem formatOfNames_congr (same : ∀ name, name ∈ names' ↔ name ∈ names) :
    formatOfNames names' = formatOfNames names := by
  have contains (name : String) : names'.contains name = names.contains name := by
    rw [Bool.eq_iff_iff]
    simpa using same name
  have all (p : String → Bool) : names'.all p = names.all p := by
    rw [Bool.eq_iff_iff]
    simp [same]
  simp only [formatOfNames, contains, all]

def lowerNames (payload : List EffectiveProperty) : List String :=
  payload.map fun p => p.name.map Char.toLower

/-- All that is read of a model is one property, an error, which is another model. -/
def Wraps (graph : TypeGraph) (outer inner : TypeId) : Prop :=
  ∃ only model, graph.payload outer .read = .ok [only] ∧ only.name.map Char.toLower = "error" ∧
    graph.resolve only.decl.type = .ok (.declared inner (.model model)) ∧ inner ≠ outer

/-- What is left when all wrappers are taken off. -/
structure Unwraps (graph : TypeGraph) (outer inner : TypeId) : Prop where
  wrapped : ReflTransGen (Wraps graph) outer inner
  bare : ∀ next, ¬ Wraps graph inner next

namespace Wraps

theorem unique {other : TypeId} (one : Wraps graph outer inner) (two : Wraps graph outer other) :
    inner = other := by
  obtain ⟨only, model, read, -, resolved, -⟩ := one
  obtain ⟨only', model', read', -, resolved', -⟩ := two
  obtain rfl := (List.cons.inj (Except.ok.inj (read.symm.trans read'))).1
  exact (Resolved.declared.inj (Except.ok.inj (resolved.symm.trans resolved'))).1

theorem isModel (wraps : Wraps graph outer inner) : ∃ model, graph.model? inner = some model := by
  obtain ⟨only, model, -, -, resolved, -⟩ := wraps
  exact ⟨model, model?_of_resolve resolved⟩

theorem index_lt (wraps : Wraps graph outer inner) : outer.index < graph.types.size := by
  obtain ⟨only, model, read, -⟩ := wraps
  cases isModel : graph.model? outer with
  | none =>
    simp [TypeGraph.payload, ancestry, bases, isModel, collect, bind, Except.bind, pure,
      Except.pure] at read
  | some model => exact index_lt_of_model? isModel

theorem format (wraps : Wraps graph outer inner) (fuel : Nat) :
    formatWithin graph (fuel + 1) outer = formatWithin graph fuel inner := by
  obtain ⟨only, model, read, named, resolved, other⟩ := wraps
  simp [formatWithin, Text.asciiLower, read, named, resolved, other, bind, Except.bind]

end Wraps

theorem Unwraps.unique {other : TypeId} (one : Unwraps graph outer inner)
    (two : Unwraps graph outer other) : inner = other := by
  have onlyOne : Relator.RightUnique (Wraps graph) := fun _ _ _ => Wraps.unique
  rcases ReflTransGen.total_of_right_unique onlyOne one.wrapped two.wrapped with
    further | further
  · exact (further.cases_head.resolve_right fun ⟨next, wraps, _⟩ => one.bare next wraps)
  · exact (further.cases_head.resolve_right fun ⟨next, wraps, _⟩ => two.bare next wraps).symm

/-- Where no model wraps itself at length, all wrappers can be taken off. -/
theorem exists_unwraps (acyclic : ∀ t, ¬ TransGen (Wraps graph) t t) (id : TypeId) :
    ∃ inner, Unwraps graph id inner := by
  have wellFounded : WellFounded fun i j : Fin graph.types.size =>
      TransGen (Wraps graph) ⟨j⟩ ⟨i⟩ := by
    have : IsTrans (Fin graph.types.size) fun i j => TransGen (Wraps graph) ⟨j⟩ ⟨i⟩ :=
      ⟨fun _ _ _ first second => second.trans first⟩
    have : Std.Irrefl fun i j : Fin graph.types.size => TransGen (Wraps graph) ⟨j⟩ ⟨i⟩ :=
      ⟨fun i back => acyclic _ back⟩
    exact Finite.wellFounded_of_trans_of_irrefl _
  have inside (i : Fin graph.types.size) : ∃ inner, Unwraps graph ⟨i⟩ inner := by
    induction i using wellFounded.induction with
    | h i ih =>
      by_cases wrapper : ∃ next, Wraps graph ⟨i⟩ next
      · obtain ⟨next, wraps⟩ := wrapper
        obtain ⟨model, isModel⟩ := wraps.isModel
        obtain ⟨inner, unwraps⟩ := ih ⟨next.index, index_lt_of_model? isModel⟩ (.single wraps)
        exact ⟨inner, .head wraps unwraps.wrapped, unwraps.bare⟩
      · exact ⟨⟨i⟩, .refl, not_exists.mp wrapper⟩
  by_cases known : id.index < graph.types.size
  · exact inside ⟨id.index, known⟩
  · exact ⟨id, .refl, fun next wraps => known wraps.index_lt⟩

theorem formatWithin_of_bare (bare : ∀ next, ¬ Wraps graph id next)
    (read : graph.payload id .read = .ok payload) (fuel : Nat) :
    formatWithin graph (fuel + 1) id = .ok (formatOfNames (lowerNames payload)) := by
  simp only [formatWithin, Text.asciiLower, read, bind, Except.bind]
  match payload, read with
  | [], _ | _ :: _ :: _, _ => rfl
  | [only], read =>
    by_cases named : only.name.map Char.toLower = "error"
    · have nothing : formatOfNames (lowerNames [only]) = none := by
        rw [lowerNames, List.map_singleton, named]
        decide
      simp only [named, if_true, nothing]
      split
      · rename_i other model resolved
        split
        · rfl
        · rename_i differs
          exact absurd ⟨only, model, read, named, resolved, differs⟩ (bare other)
      · rfl
    · simp [named, lowerNames, pure, Except.pure]

/-- Wrappers are taken off one after the other, as far as there is fuel. -/
theorem formatWithin_of_walk {path : List TypeId} (walk : Walk (Wraps graph) outer path)
    (ends : path.getLast? = some inner) (bare : ∀ next, ¬ Wraps graph inner next)
    (read : graph.payload inner .read = .ok payload) (enough : path.length ≤ fuel) :
    formatWithin graph fuel outer = .ok (formatOfNames (lowerNames payload)) := by
  obtain ⟨rest, rfl⟩ := List.head?_eq_some_iff.mp walk.starts
  obtain ⟨fuel, rfl⟩ := Nat.exists_eq_add_of_le' (Nat.le_of_add_left_le enough)
  induction rest generalizing outer fuel with
  | nil =>
    obtain rfl : outer = inner := Option.some.inj ends
    exact formatWithin_of_bare bare read fuel
  | cons second rest ih =>
    obtain ⟨wraps, further⟩ := walk.tail
    rw [wraps.format]
    have enough := Nat.le_of_succ_le_succ enough
    obtain ⟨fuel, rfl⟩ := Nat.exists_eq_add_of_le' (Nat.le_of_add_left_le enough)
    exact ih further ends fuel enough

/-- Wrappers that lead to a bare model are all different, so there is fuel for all of them. -/
theorem format?_of_unwraps (isModel : graph.model? id = some model)
    (unwraps : Unwraps graph id inner) (read : graph.payload inner .read = .ok payload) :
    format? graph id = .ok (formatOfNames (lowerNames payload)) := by
  obtain ⟨path, walk, ends⟩ := Walk.exists_of_reaches unwraps.wrapped
  have inside : ∀ t ∈ path, t.index < graph.types.size := by
    intro t passed
    rcases (walk.reaches passed).cases_tail with same | ⟨before, -, wraps⟩
    · exact same ▸ index_lt_of_model? isModel
    · obtain ⟨model, isModel⟩ := wraps.isModel
      exact index_lt_of_model? isModel
  have short : path.length ≤ graph.types.size :=
    Visited.le_size ⟨walk.distinct, inside, Nat.le_refl _⟩
  exact formatWithin_of_walk walk ends unwraps.bare read (Nat.le_succ_of_le short)

/-- A model whose bases can all be found. -/
def BasesResolve (graph : TypeGraph) (id : TypeId) : Prop :=
  ∀ t, ReflTransGen graph.HasBase id t →
    ∀ name, (graph.model? t).bind (·.base) = some name → ∃ base, graph.modelNamed name = .ok base

theorem BasesResolve.exists_payload (resolve : BasesResolve graph id) (v : Visibility) :
    ∃ payload, graph.payload id v = .ok payload := by
  rcases ancestry_walked graph id with
    ⟨chain, first, run, -⟩ | ⟨e, path, last, -, walk, ends, name, named, missing⟩
  · exact ⟨_, payload_of_ancestry run v⟩
  · obtain ⟨base, found⟩ := resolve last (walk.reaches (List.mem_of_getLast? ends)) name named
    rw [missing] at found
    cases found

/-- The body of an error that has this format, if it has one. -/
def bodyOf (status : String) : Option String → Except ConvertError (Option Schema)
  | some format => .ok (some (.ofKind (.reference (.external format))))
  | none => .error (.unsupportedErrorFormat status)

theorem bodyOf_eq_ok_iff {status format : String} {found : Option String} :
    bodyOf status found = .ok (some (.ofKind (.reference (.external format)))) ↔
      found = some format := by
  cases found <;> simp [bodyOf, Schema.ofKind]

theorem bodyOf_eq_error_iff {status : String} {found : Option String} :
    bodyOf status found = .error (.unsupportedErrorFormat status) ↔ found = none := by
  cases found <;> simp [bodyOf]

theorem schema?_of_unwraps (resolved : graph.resolve type = .ok (.declared id (.model model)))
    (unwraps : Unwraps graph id inner) (read : graph.payload inner .read = .ok payload)
    (status : String) :
    schema? graph (some type) status = bodyOf status (formatOfNames (lowerNames payload)) := by
  simp only [schema?, resolved, format?_of_unwraps (model?_of_resolve resolved) unwraps read]
  cases formatOfNames (lowerNames payload) <;> rfl

/-- A name under which something is read of a model: its last declaration along the bases is
visible there, whichever of the models makes it. -/
def Reads (graph : TypeGraph) (id : TypeId) (name : String) : Prop :=
  ∃ chain owner decl, graph.ancestry id = .ok chain ∧
    graph.latest? name chain = some (owner, decl) ∧ decl.isVisible .read

theorem mem_lowerNames (read : graph.payload id .read = .ok payload) {name : String} :
    name ∈ lowerNames payload ↔ ∃ own, Reads graph id own ∧ own.map Char.toLower = name := by
  obtain ⟨chain, run, rfl⟩ := ancestry_of_payload read
  have names (own : String) : Reads graph id own ↔
      own ∈ (graph.collect chain (graph.discriminatorNames chain) .read).map (·.name) := by
    rw [mem_names_collect]
    constructor
    · rintro ⟨chain', owner, decl, run', declared⟩
      obtain rfl := Except.ok.inj (run.symm.trans run')
      exact ⟨owner, decl, declared⟩
    · rintro ⟨owner, decl, declared⟩
      exact ⟨chain, owner, decl, run, declared⟩
  simp only [names, lowerNames, List.mem_map, exists_exists_and_eq_and]

/-- Hidden properties that are added to models anywhere change no format. -/
theorem format?_of_extends (more : graph.Extends .read graph') (id : TypeId) :
    format? graph' id = format? graph id := by
  have within (fuel : Nat) (id : TypeId) :
      formatWithin graph' fuel id = formatWithin graph fuel id := by
    induction fuel generalizing id with
    | zero => rfl
    | succ fuel ih =>
      unfold formatWithin
      rw [more.payload_eq]
      cases graph.payload id .read with
      | error e => rfl
      | ok payload =>
        match payload with
        | [] | _ :: _ :: _ => rfl
        | [only] =>
          simp only [bind, Except.bind]
          rcases more.resolve_cases only.decl.type with same | ⟨inner, model, _, here, there⟩
          · simp only [same, ih]
          · simp only [here, there, ih]
  rw [format?, format?, more.size, within]

theorem schema?_of_extends (more : graph.Extends .read graph') (type : Option TypeRef)
    (status : String) : schema? graph' type status = schema? graph type status := by
  cases type with
  | none => rfl
  | some type =>
    rcases more.resolve_cases type with same | ⟨id, model, _, here, there⟩
    · simp only [schema?, same, format?_of_extends more]
    · simp only [schema?, here, there, format?_of_extends more]

/-- An error has the format that fits the names of the properties that are left when all wrappers
are taken off, and is refused if neither does. More or fewer wrappers make no difference, nor does
it matter which model of a hierarchy declares a property, or what is declared besides under new
names and is hidden where errors are read. -/
theorem errors_are_recognised (acyclic : ∀ t, ¬ TransGen (Wraps graph) t t)
    (resolved : graph.resolve type = .ok (.declared id (.model model)))
    (resolve : ∀ t, ReflTransGen (Wraps graph) id t → BasesResolve graph t) (status : String) :
    ∃ inner payload, Unwraps graph id inner ∧ (∀ other, Unwraps graph id other → other = inner) ∧
      graph.payload inner .read = .ok payload ∧
      (schema? graph (some type) status =
          .ok (some (.ofKind (.reference (.external "MgmtErrorFormat")))) ↔
        Fits ["code", "message", "additionalinfo"]
          ["code", "message", "target", "details", "additionalinfo"] (lowerNames payload)) ∧
      (schema? graph (some type) status =
          .ok (some (.ofKind (.reference (.external "ODataV4Format")))) ↔
        Fits ["code", "message"] ["code", "message", "target", "details", "innererror"]
          (lowerNames payload)) ∧
      (schema? graph (some type) status = .error (.unsupportedErrorFormat status) ↔
        ¬ Fits ["code", "message", "additionalinfo"]
          ["code", "message", "target", "details", "additionalinfo"] (lowerNames payload) ∧
        ¬ Fits ["code", "message"] ["code", "message", "target", "details", "innererror"]
          (lowerNames payload)) ∧
      (∀ outer wrapper model', graph.resolve wrapper = .ok (.declared outer (.model model')) →
        ReflTransGen (Wraps graph) outer id →
        schema? graph (some wrapper) status = schema? graph (some type) status) ∧
      (∀ graph' type' id' model' inner' payload',
        graph'.resolve type' = .ok (.declared id' (.model model')) →
        Unwraps graph' id' inner' → graph'.payload inner' .read = .ok payload' →
        (∀ name, Reads graph' inner' name ↔ Reads graph inner name) →
        schema? graph' (some type') status = schema? graph (some type) status) ∧
      ∀ graph', graph.Extends .read graph' →
        schema? graph' (some type) status = schema? graph (some type) status := by
  obtain ⟨inner, unwraps⟩ := exists_unwraps acyclic id
  obtain ⟨payload, read⟩ := (resolve inner unwraps.wrapped).exists_payload .read
  have body := schema?_of_unwraps resolved unwraps read status
  refine ⟨inner, payload, unwraps, fun other two => two.unique unwraps, read,
    ?_, ?_, ?_, ?_, ?_, ?_⟩
  · rw [body, bodyOf_eq_ok_iff, formatOfNames_eq_management_iff]
  · rw [body, bodyOf_eq_ok_iff, formatOfNames_eq_odata_iff]
  · rw [body, bodyOf_eq_error_iff, formatOfNames_eq_none_iff]
  · intro outer wrapper model' resolved' wrapped
    rw [body]
    exact schema?_of_unwraps resolved' ⟨wrapped.trans unwraps.wrapped, unwraps.bare⟩ read status
  · intro graph' type' id' model' inner' payload' resolved' unwraps' read' same
    rw [body, schema?_of_unwraps resolved' unwraps' read' status]
    congr 1
    refine formatOfNames_congr fun name => ?_
    simp only [mem_lowerNames read, mem_lowerNames read', same]
  · exact fun graph' more => schema?_of_extends more (some type) status

/-- Three errors with the names of a failure: a wrapped one of each format, and one that fits
neither. -/
def failures (added : List (String × Property)) : TypeGraph where
  version := "1"
  types := .ofEntries [
    ("ErrorResponse", .model {
      name := "ErrorResponse"
      properties := .ofEntries [("Error", { type := .named "ErrorDetail" })] }),
    ("ErrorDetail", .model {
      name := "ErrorDetail"
      base := some "Failure"
      properties := .ofEntries [
        ("additionalInfo", { type := .named "string", optional := true })] }),
    ("Failure", .model {
      name := "Failure"
      properties := .ofEntries (("Code", { type := .named "string" }) :: added ++
        [("message", { type := .named "string" })]) }),
    ("FaultResponse", .model {
      name := "FaultResponse"
      properties := .ofEntries [("error", { type := .named "Fault" })] }),
    ("Fault", .model {
      name := "Fault"
      base := some "Failure"
      properties := .ofEntries [
        ("innerError", { type := .named "string", optional := true })] }),
    ("Rejection", .model {
      name := "Rejection"
      base := some "Failure"
      properties := .ofEntries [("severity", { type := .named "string" })] })]

def trace : String × Property :=
  ("trace", { type := .named "string", visibility := some [.create] })

theorem failures_wraps {outer inner : TypeId} (wraps : Wraps (failures []) outer inner) :
    outer = ⟨0⟩ ∧ inner = ⟨1⟩ ∨ outer = ⟨3⟩ ∧ inner = ⟨4⟩ := by
  have inside : outer.index < 6 := wraps.index_lt
  obtain ⟨only, model, read, -, resolved, -⟩ := wraps
  -- A payload of one property names what it wraps, and the others have several.
  have wrapped (name : String) (t : TypeId) (decl : Declaration)
      (types : ((failures []).payload outer .read).map (List.map (·.decl.type)) = .ok [.named name])
      (known : (failures []).resolve (.named name) = .ok (.declared t decl)) : inner = t := by
    have type : only.decl.type = .named name := by simpa [read, Except.map] using types
    rw [type, known] at resolved
    exact (Resolved.declared.inj (Except.ok.inj resolved)).1.symm
  have several (n : Nat)
      (many : ((failures []).payload outer .read).map List.length = .ok (n + 2)) : False := by
    simp [read, Except.map] at many
  obtain ⟨i⟩ := outer
  match i, inside with
  | 0, _ => exact .inl ⟨rfl, wrapped "ErrorDetail" ⟨1⟩ _ rfl rfl⟩
  | 3, _ => exact .inr ⟨rfl, wrapped "Fault" ⟨4⟩ _ rfl rfl⟩
  | 1, _ | 4, _ | 5, _ => exact (several 1 rfl).elim
  | 2, _ => exact (several 0 rfl).elim

theorem failures_acyclic (t : TypeId) : ¬ TransGen (Wraps (failures [])) t t := by
  intro back
  obtain ⟨next, first, -⟩ := TransGen.head'_iff.mp back
  obtain ⟨before, -, last⟩ := TransGen.tail'_iff.mp back
  rcases failures_wraps first with ⟨rfl, -⟩ | ⟨rfl, -⟩
  · rcases failures_wraps last with ⟨-, same⟩ | ⟨-, same⟩ <;> cases same
  · rcases failures_wraps last with ⟨-, same⟩ | ⟨-, same⟩ <;> cases same

theorem failures_bases (t : TypeId) : BasesResolve (failures []) t := by
  intro last _ name named
  obtain ⟨i⟩ := last
  match i with
  | 0 | 2 | 3 | _ + 6 => cases named
  | 1 | 4 | 5 =>
    obtain rfl : "Failure" = name := Option.some.inj named
    exact ⟨_, rfl⟩

theorem failures_extends : (failures []).Extends .read (failures [trace]) where
  keys := rfl
  adds t decl decl' here there := by
    obtain ⟨i⟩ := t
    match i with
    | 0 | 1 | 3 | 4 | 5 =>
      cases here
      cases there
      exact .same
    | 2 =>
      cases here
      cases there
      refine .model ⟨rfl, by decide, fun e member new id chain _ _ t _ => ?_⟩
      obtain ⟨i⟩ := t
      have added : e.1 = "trace" := by
        revert e
        decide
      rw [added]
      match i with
      | 0 | 1 | 2 | 3 | 4 | 5 | _ + 6 => rfl
    | _ + 6 => cases here

theorem failures_unwraps {outer inner : TypeId}
    (wraps : ReflTransGen (Wraps (failures [])) outer inner)
    (bare : inner ≠ ⟨0⟩ ∧ inner ≠ ⟨3⟩) : Unwraps (failures []) outer inner where
  wrapped := wraps
  bare := fun next further => by
    rcases failures_wraps further with ⟨rfl, -⟩ | ⟨rfl, -⟩
    · exact bare.1 rfl
    · exact bare.2 rfl

/-- The details have the names of one format, inherited ones among them, and the fault those of the
other. A rejection is refused. A trace that is hidden from readers does not matter. -/
theorem failures_are_recognised : (∀ t, ¬ TransGen (Wraps (failures [])) t t) ∧
    (∀ t, BasesResolve (failures []) t) ∧
    (∃ model, (failures []).resolve (.named "ErrorResponse") =
      .ok (.declared ⟨0⟩ (.model model))) ∧
    (∃ model, (failures []).resolve (.named "FaultResponse") =
      .ok (.declared ⟨3⟩ (.model model))) ∧
    (∃ model, (failures []).resolve (.named "Rejection") = .ok (.declared ⟨5⟩ (.model model))) ∧
    (failures []).Extends .read (failures [trace]) ∧
    (∀ graph ∈ [failures [], failures [trace]],
      schema? graph (some (.named "ErrorResponse")) "default" =
        .ok (some (.ofKind (.reference (.external "MgmtErrorFormat")))) ∧
      schema? graph (some (.named "FaultResponse")) "default" =
        .ok (some (.ofKind (.reference (.external "ODataV4Format")))) ∧
      schema? graph (some (.named "Rejection")) "default" =
        .error (.unsupportedErrorFormat "default")) := by
  have bases (id : TypeId) (t : TypeId) (_ : ReflTransGen (Wraps (failures [])) id t) :
      BasesResolve (failures []) t := failures_bases t
  have response : (failures []).resolve (.named "ErrorResponse") =
    .ok (.declared ⟨0⟩ (.model _)) := rfl
  have fault : (failures []).resolve (.named "FaultResponse") =
    .ok (.declared ⟨3⟩ (.model _)) := rfl
  have rejection : (failures []).resolve (.named "Rejection") =
    .ok (.declared ⟨5⟩ (.model _)) := rfl
  obtain ⟨inner, payload, -, only, read, management, -, -, -, -, added⟩ :=
    errors_are_recognised failures_acyclic response (bases _) "default"
  obtain ⟨inner', payload', -, only', read', -, odata, -, -, -, added'⟩ :=
    errors_are_recognised failures_acyclic fault (bases _) "default"
  obtain ⟨inner'', payload'', -, only'', read'', -, -, refused, -, -, added''⟩ :=
    errors_are_recognised failures_acyclic rejection (bases _) "default"
  obtain rfl := only ⟨1⟩ (failures_unwraps (.single ⟨_, _, rfl, by decide +kernel, rfl, by decide⟩)
    (by decide))
  obtain rfl := only' ⟨4⟩ (failures_unwraps
    (.single ⟨_, _, rfl, by decide +kernel, rfl, by decide⟩) (by decide))
  obtain rfl := only'' ⟨5⟩ (failures_unwraps .refl (by decide))
  obtain rfl := Except.ok.inj ((rfl : (failures []).payload ⟨1⟩ .read = .ok _).symm.trans read)
  obtain rfl := Except.ok.inj ((rfl : (failures []).payload ⟨4⟩ .read = .ok _).symm.trans read')
  obtain rfl := Except.ok.inj ((rfl : (failures []).payload ⟨5⟩ .read = .ok _).symm.trans read'')
  have recognised := management.mpr ⟨by decide +kernel, by decide +kernel⟩
  have recognised' := odata.mpr ⟨by decide +kernel, by decide +kernel⟩
  have refused := refused.mpr ⟨fun fits => absurd fits.complete (by decide +kernel),
    fun fits => absurd fits.within (by decide +kernel)⟩
  exact ⟨failures_acyclic, failures_bases, ⟨_, response⟩, ⟨_, fault⟩, ⟨_, rejection⟩,
    failures_extends, List.forall_mem_cons.mpr ⟨⟨recognised, recognised', refused⟩,
      List.forall_mem_singleton.mpr ⟨(added _ failures_extends).trans recognised,
        (added' _ failures_extends).trans recognised',
        (added'' _ failures_extends).trans refused⟩⟩⟩

end WireSchema.ErrorBody
