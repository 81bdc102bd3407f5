import Mathlib.Data.List.Forall2
import WireSchema.Proofs.Names

/-! Class tables under any use, not only that of a conversion: classes are looked up, visited and
given bodies in any order before they are named. -/
namespace WireSchema.ClassTable

inductive Use where
  | find (type : TypeId) (v : Visibility)
  | visit (slot : Slot)
  | store (slot : Slot) (body : Schema)

namespace Use

def apply : Use → ClassTable → ClassTable
  | find type v, t => (t.slotOf type v).2
  | visit slot, t => t.visit slot
  | store slot body, t => t.store slot body

def slot? : Use → Option Slot
  | find .. => none
  | visit slot => some slot
  | store slot _ => some slot

def isVisit : Use → Bool
  | visit _ => true
  | _ => false

def body? : Use → Option Schema
  | store _ body => some body
  | _ => none

end Use

def after (t : ClassTable) (uses : List Use) : ClassTable := uses.foldl (fun t use => use.apply t) t

/-- The classes that are looked up, each with the slot that is handed out for it. -/
def handedOut (t : ClassTable) : List Use → List ((TypeId × Visibility) × Slot)
  | [] => []
  | .find type v :: rest => ((type, v), (t.slotOf type v).1) :: handedOut (t.slotOf type v).2 rest
  | use :: rest => handedOut (use.apply t) rest

/-- The uses of a slot, from when on it is there. -/
def usesOf (slot : Slot) (t : ClassTable) : List Use → List Use
  | [] => []
  | use :: rest =>
    let later := usesOf slot (use.apply t) rest
    if use.slot? = some slot ∧ slot < t.size then use :: later else later

/-- No slot is used that has not been handed out. -/
def Known (t : ClassTable) : List Use → Prop
  | [] => True
  | use :: rest => (∀ slot ∈ use.slot?, slot < t.size) ∧ Known (use.apply t) rest

variable {t t' : ClassTable} {slot s : Slot} {key : TypeId × Visibility} {use : Use}
  {uses : List Use} {graph : TypeGraph} {stage : Stage}

theorem slotOf_self (t : ClassTable) (type : TypeId) (v : Visibility) :
    (t.slotOf type v).2.keys[(t.slotOf type v).1]? = some (type, v) ∧
      ((t.slotOf type v).2 = t ∨
        (type, v) ∉ t.keys ∧ (t.slotOf type v).2.keys = t.keys ++ [(type, v)]) ∧
      ∀ s, (t.slotOf type v).2.count s = t.count s ∧ (t.slotOf type v).2.body? s = t.body? s :=
  slotOf_spec rfl

theorem keys_apply (use : Use) (t : ClassTable) : t.keys <+: (use.apply t).keys := by
  cases use with
  | find type v =>
    rw [Use.apply]
    obtain ⟨-, same | ⟨-, grown⟩, -⟩ := slotOf_self t type v
    · exact ⟨[], by rw [same, List.append_nil]⟩
    · exact ⟨_, grown.symm⟩
  | visit slot => exact keys_visit ▸ List.prefix_rfl
  | store slot body => exact keys_store ▸ List.prefix_rfl

theorem keys_after (t : ClassTable) (uses : List Use) : t.keys <+: (t.after uses).keys := by
  induction uses generalizing t with
  | nil => exact List.prefix_rfl
  | cons use rest ih => exact (keys_apply use t).trans (ih (use.apply t))

theorem Distinct.apply (distinct : t.Distinct) (use : Use) : (use.apply t).Distinct := by
  cases use with
  | find type v =>
    rw [Use.apply]
    obtain ⟨-, same | ⟨absent, grown⟩, -⟩ := slotOf_self t type v
    · rwa [same]
    · rw [Distinct, grown, List.nodup_append]
      exact ⟨distinct, by simp, fun a known b new => by
        rw [List.mem_singleton.mp new]
        exact fun e => absent (e ▸ known)⟩
  | visit slot => simpa [Distinct, Use.apply] using distinct
  | store slot body => exact distinct.store

theorem Distinct.after (distinct : t.Distinct) (uses : List Use) : (t.after uses).Distinct := by
  induction uses generalizing t with
  | nil => exact distinct
  | cons use rest ih => exact ih (distinct.apply use)

/-- The slot that is handed out for a class stays that of the class. -/
theorem key_of_handedOut (given : (key, slot) ∈ t.handedOut uses) :
    (t.after uses).keys[slot]? = some key := by
  induction uses generalizing t with
  | nil => cases given
  | cons use rest ih =>
    cases use with
    | find type v =>
      rcases List.mem_cons.mp given with same | later
      · cases same
        obtain ⟨here, -, -⟩ := slotOf_self t type v
        obtain ⟨further, eq⟩ := keys_after (t.slotOf type v).2 rest
        have inside := (List.getElem?_eq_some_iff.mp here).1
        change ((t.slotOf type v).2.after rest).keys[(t.slotOf type v).1]? = _
        rw [← eq, List.getElem?_append_left inside, here]
      · exact ih later
    | visit slot => exact ih given
    | store slot body => exact ih given

theorem key_of_grown {keys : List (TypeId × Visibility)} {added : TypeId × Visibility}
    (known : (keys ++ [added])[slot]? = some key) :
    keys[slot]? = some key ∨ slot = keys.length ∧ key = added := by
  rcases Nat.lt_or_ge slot keys.length with inside | behind
  · exact .inl (by rwa [List.getElem?_append_left inside] at known)
  · have last := (List.getElem?_eq_some_iff.mp known).1
    rw [List.length_append, List.length_singleton] at last
    have here : slot = keys.length := Nat.le_antisymm (Nat.le_of_lt_succ last) behind
    subst here
    exact .inr ⟨rfl, by simpa [eq_comm] using known⟩

/-- Only slots are taken that are handed out. -/
theorem handedOut_of_key (known : (t.after uses).keys[slot]? = some key) :
    t.keys[slot]? = some key ∨ (key, slot) ∈ t.handedOut uses := by
  induction uses generalizing t with
  | nil => exact .inl known
  | cons use rest ih =>
    cases use with
    | find type v =>
      refine (ih known).elim (fun early => ?_) fun later => .inr (List.mem_cons_of_mem _ later)
      obtain ⟨here, same | ⟨absent, grown⟩, -⟩ := slotOf_self t type v
      · exact .inl (same ▸ early)
      · have early : (t.slotOf type v).2.keys[slot]? = some key := early
        rw [grown] at early here
        rcases key_of_grown early with early | ⟨rfl, rfl⟩
        · exact .inl early
        -- A class that is entered has the slot behind the others.
        rcases key_of_grown here with early | ⟨last, -⟩
        · exact absurd (List.mem_of_getElem? early) absent
        · exact .inr (last ▸ List.mem_cons_self)
    | visit slot' => exact (ih known).imp_left fun early => keys_visit ▸ early
    | store slot' body => exact (ih known).imp_left fun early => keys_store ▸ early

theorem slot_eq_iff_of_handedOut (distinct : t.Distinct) {key' : TypeId × Visibility}
    (here : (key, slot) ∈ t.handedOut uses) (there : (key', s) ∈ t.handedOut uses) :
    slot = s ↔ key = key' := by
  have here := key_of_handedOut here
  have there := key_of_handedOut there
  constructor
  · rintro rfl
    exact Option.some.inj (here.symm.trans there)
  · rintro rfl
    exact (distinct.after uses).slot_eq there here

theorem record?_eq_none (outside : ¬ slot < t.size) : t.record? slot = none :=
  List.getElem?_eq_none (Nat.le_of_not_lt outside)

theorem apply_spec (use : Use) (t : ClassTable) (slot : Slot) :
    let own := if use.slot? = some slot ∧ slot < t.size then [use] else []
    (use.apply t).count slot = t.count slot + own.countP Use.isVisit ∧
      (use.apply t).body? slot = (own.findSome? Use.body?).or (t.body? slot) := by
  cases use with
  | find type v =>
    obtain ⟨-, -, same⟩ := slotOf_self t type v
    simpa [Use.slot?, Use.apply] using same slot
  | visit other =>
    by_cases inside : slot < t.size
    · have here : t.record? slot = some t.records[slot] := List.getElem?_eq_getElem inside
      by_cases same : slot = other
      · subst same
        simp [Use.slot?, Use.apply, Use.isVisit, Use.body?, count, ClassTable.body?,
          record?_visit, here, inside]
      · simp [Use.slot?, Use.apply, count, ClassTable.body?, record?_visit, same, Ne.symm same]
    · simp [Use.slot?, Use.apply, count, ClassTable.body?, record?_visit, inside,
        record?_eq_none inside]
  | store other body =>
    by_cases inside : slot < t.size
    · have here : t.record? slot = some t.records[slot] := List.getElem?_eq_getElem inside
      by_cases same : slot = other
      · subst same
        simp [Use.slot?, Use.apply, Use.isVisit, Use.body?, ClassTable.body?, record?_store, here,
          inside]
      · simp [Use.slot?, Use.apply, ClassTable.body?, record?_store, same, Ne.symm same]
    · simp [Use.slot?, Use.apply, ClassTable.body?, record?_store, inside,
        record?_eq_none inside]

theorem usesOf_cons (slot : Slot) (t : ClassTable) (use : Use) (rest : List Use) :
    usesOf slot t (use :: rest) =
      (if use.slot? = some slot ∧ slot < t.size then [use] else []) ++
        usesOf slot (use.apply t) rest := by
  simp only [usesOf]
  split <;> rfl

/-- The count of a slot grows with every visit, and the last body stays. -/
theorem after_spec (t : ClassTable) (uses : List Use) (slot : Slot) :
    (t.after uses).count slot = t.count slot + (usesOf slot t uses).countP Use.isVisit ∧
      (t.after uses).body? slot =
        ((usesOf slot t uses).reverse.findSome? Use.body?).or (t.body? slot) := by
  induction uses generalizing t with
  | nil => simp [after, usesOf]
  | cons use rest ih =>
    obtain ⟨counted, stored⟩ := apply_spec use t slot
    obtain ⟨counts, bodies⟩ := ih (use.apply t)
    rw [usesOf_cons, List.countP_append, List.reverse_append, List.findSome?_append]
    constructor
    · change ((use.apply t).after rest).count slot = _
      rw [counts, counted, Nat.add_assoc]
    · change ((use.apply t).after rest).body? slot = _
      rw [bodies, stored, Option.or_assoc]
      split <;> rfl

/-- Where only slots are used that have been handed out, every use of a slot counts. -/
theorem usesOf_of_known (known : t.Known uses) (slot : Slot) :
    usesOf slot t uses = uses.filter (·.slot? == some slot) := by
  induction uses generalizing t with
  | nil => rfl
  | cons use rest ih =>
    obtain ⟨inside, known⟩ := known
    rw [usesOf_cons, ih known, List.filter_cons]
    by_cases own : use.slot? = some slot
    · have inside : slot < t.size := inside slot (by simp [own])
      simp [own, inside]
    · simp [own]

def unnamed (r : ClassRecord) : ClassRecord := { r with name := none }

theorem map_unnamed_nameRecords (wanted : ClassRecord → String) (used : List String)
    (records : List ClassRecord) :
    (nameRecords wanted used records).map unnamed = records.map unnamed := by
  induction records generalizing used with
  | nil => rfl
  | cons r rest ih =>
    unfold nameRecords
    split <;> rw [List.map_cons, List.map_cons, ih] <;> rfl

@[simp] theorem keys_finalize : (t.finalize graph stage).keys = t.keys := by
  have same := map_unnamed_nameRecords (t.wantedName graph stage) [] t.records
  have keys (records : List ClassRecord) : keys ⟨records⟩ =
      (records.map unnamed).map fun r => (r.type, r.visibility) := by
    simp [ClassTable.keys, unnamed]
  rw [finalize, keys, same, ← keys]

/-- Naming the classes changes nothing else about them. -/
theorem record?_of_finalize {r : ClassRecord}
    (here : (t.finalize graph stage).record? slot = some r) :
    t.count slot = r.count ∧ t.body? slot = r.body ∧ r.name.isSome = r.isShared := by
  have key : t.keys[slot]? = some (r.type, r.visibility) := by
    rw [← keys_finalize, keys_getElem?, here]
    rfl
  rw [keys_getElem?] at key
  obtain ⟨r₀, known, -⟩ := Option.map_eq_some_iff.mp key
  obtain ⟨name, same, shared⟩ := record?_finalize graph stage known
  have counted := count_of_record? known
  have stored := body?_of_record? known
  obtain rfl := Option.some.inj (here.symm.trans same)
  exact ⟨counted, stored, shared⟩

theorem isAmbiguous_finalize (type : TypeId) :
    (t.finalize graph stage).isAmbiguous type = t.isAmbiguous type := by
  have same := map_unnamed_nameRecords (t.wantedName graph stage) [] t.records
  have shared (records : List ClassRecord) : isAmbiguous ⟨records⟩ type =
      decide (1 < ((records.map unnamed).filter fun r => r.isShared && r.type = type).length) := by
    rw [List.filter_map, List.length_map]
    rfl
  rw [finalize, shared, same, ← shared]

/-- Naming records again gives them the same names, if these do not matter for what they ask for. -/
theorem nameRecords_again {wanted wanted' : ClassRecord → String}
    (same : ∀ r name, wanted' { r with name } = wanted r) (used : List String)
    (records : List ClassRecord) :
    nameRecords wanted' used (nameRecords wanted used records) =
      nameRecords wanted used records := by
  induction records generalizing used with
  | nil => rfl
  | cons r rest ih =>
    rw [nameRecords]
    split
    · rename_i shared
      have shared (name : Option String) : ({ r with name } : ClassRecord).isShared = true := shared
      rw [nameRecords, if_pos (shared _)]
      simp only [same, ih]
    · rename_i alone
      have alone (name : Option String) : ¬ ({ r with name } : ClassRecord).isShared = true := alone
      rw [nameRecords, if_neg (alone _)]
      simp only [ih]

theorem finalize_finalize (t : ClassTable) (graph : TypeGraph) (stage : Stage) :
    (t.finalize graph stage).finalize graph stage = t.finalize graph stage := by
  have same (r : ClassRecord) (name : Option String) :
      (t.finalize graph stage).wantedName graph stage { r with name } =
        t.wantedName graph stage r := by
    simp only [wantedName, isAmbiguous_finalize]
  exact congrArg ClassTable.mk (nameRecords_again same [] t.records)

def Defines (t : ClassTable) (r : ClassRecord) (entry : String × Schema) : Prop :=
  r.name = some entry.1 ∧ ∃ body, r.body = some body ∧ body.resolve t.nameOf = entry.2

theorem defines_filterMap (t : ClassTable) {records : List ClassRecord}
    (named : ∀ r ∈ records, r.name.isSome = r.isShared) :
    List.Forall₂ t.Defines (records.filter fun r => r.isShared && r.body.isSome)
      (records.filterMap t.definition?) := by
  induction records with
  | nil => exact .nil
  | cons r rest ih =>
    rw [List.forall_mem_cons] at named
    have others := ih named.2
    rw [List.filter_cons, List.filterMap_cons, ← named.1]
    cases name : r.name with
    | none => simpa [definition?, name] using others
    | some name' =>
      cases body : r.body with
      | none => simpa [definition?, name, body] using others
      | some body' =>
        have defines : t.Defines r (name', body'.resolve t.nameOf) := ⟨name, body', body, rfl⟩
        simpa [definition?, name, body] using others.cons defines

/-- No definition takes the place of another one. -/
theorem entries_definitions (t : ClassTable) (graph : TypeGraph) (stage : Stage) :
    let done := t.finalize graph stage
    done.definitions.entries = done.records.filterMap done.definition? := by
  intro done
  refine OrderedMap.entries_ofEntries (List.Nodup.sublist (definition_keys_sublist done _) ?_)
  exact (names_distinct (t.wantedName graph stage) [] t.records).1

/-- Whatever is done to a class table before its classes are named: a class has one slot, which is
no other class's; its count is the number of its visits; it has a name exactly if there were at
least two, and no other class has that name; those of them that have a body are defined in the
order of their slots. Naming the classes once more changes nothing. -/
theorem uses_are_recorded (graph : TypeGraph) (stage : Stage) (uses : List Use) :
    let done := (after {} uses).finalize graph stage
    (∀ key slot, (key, slot) ∈ handedOut {} uses ↔ done.keys[slot]? = some key) ∧
    (∀ key slot key' slot', (key, slot) ∈ handedOut {} uses → (key', slot') ∈ handedOut {} uses →
      (slot = slot' ↔ key = key')) ∧
    (∀ slot r, done.record? slot = some r →
      r.count = (usesOf slot {} uses).countP Use.isVisit ∧
      r.body = (usesOf slot {} uses).reverse.findSome? Use.body? ∧
      (Known {} uses → usesOf slot {} uses = uses.filter (·.slot? == some slot)) ∧
      (r.name.isSome ↔ 2 ≤ r.count)) ∧
    (∀ slot slot' name, done.nameOf slot = some name → done.nameOf slot' = some name →
      slot = slot') ∧
    List.Forall₂ done.Defines (done.records.filter fun r => 2 ≤ r.count && r.body.isSome)
      done.definitions.entries ∧
    done.finalize graph stage = done := by
  intro done
  refine ⟨fun key slot => ⟨fun given => ?_, fun known => ?_⟩, ?_, fun slot r here => ?_, ?_, ?_,
    finalize_finalize ..⟩
  · rw [keys_finalize]
    exact key_of_handedOut given
  · rw [keys_finalize] at known
    exact (handedOut_of_key known).resolve_left (by simp [keys])
  · exact fun key slot key' slot' => slot_eq_iff_of_handedOut distinct_empty
  · obtain ⟨same, own, named⟩ := record?_of_finalize here
    obtain ⟨counted, stored⟩ := after_spec {} uses slot
    have fresh : count {} slot = 0 ∧ body? {} slot = none := ⟨rfl, rfl⟩
    rw [fresh.1, Nat.zero_add, same] at counted
    rw [fresh.2, Option.or_none, own] at stored
    exact ⟨counted, stored, fun known => usesOf_of_known known slot,
      by simp [named, ClassRecord.isShared]⟩
  · exact fun slot slot' name => nameOf_injective
  · rw [entries_definitions]
    refine done.defines_filterMap fun r member => ?_
    obtain ⟨slot, here⟩ := List.mem_iff_getElem?.mp member
    exact (record?_of_finalize here).2.2

/-- Two models are named alike, and a third as the second of them is when its name is numbered. -/
def widgetModels : TypeGraph where
  version := "1"
  types := .ofEntries [
    ("Widget", .model {}), ("Widget2", .model {}), ("Other", .model { name := "Widget" })]

/-- All are visited twice, and the first has no body. -/
def widgetUses : List Use := [
  .find ⟨0⟩ .read, .visit 0, .find ⟨2⟩ .read, .visit 1, .visit 0, .visit 1, .store 1 .anyObject,
  .find ⟨1⟩ .read, .visit 2, .visit 2, .store 2 .anyObject, .find ⟨1⟩ .create, .visit 3]

theorem widgets_recorded :
    let done := (after {} widgetUses).finalize widgetModels .read
    done.records.map (·.name) = [some "Widget", some "Widget2", some "Widget22", none] ∧
      done.definitions.keys = ["Widget2", "Widget22"] ∧
      (∃ r, done.record? 0 = some r ∧ r.count = 2 ∧ r.body.isNone) ∧
      done.finalize widgetModels .read = done := by
  intro done
  obtain ⟨-, -, records, -, -, again⟩ := uses_are_recorded widgetModels .read widgetUses
  obtain ⟨r, here⟩ : ∃ r, done.record? 0 = some r := ⟨_, rfl⟩
  obtain ⟨count, body, -⟩ := records 0 r here
  exact ⟨by decide +kernel, by decide +kernel, ⟨r, here, count, by rw [body]; rfl⟩, again⟩

end WireSchema.ClassTable
