import WireSchema.Proofs.Layers

/-! Passes that are watched at one class: how often the class has been met, and passes that do
something of their own whenever they set out to build the object of the class. -/
namespace WireSchema

open ConvertM

namespace ClassTable

variable {t t' : ClassTable} {key other : TypeId × Visibility} {slot : Slot} {id : TypeId}
  {v : Visibility} {body : Schema}

/-- The slot of a class, which it has or would get. -/
def slotFor (t : ClassTable) (key : TypeId × Visibility) : Slot :=
  t.keys.findIdx (· = key)

def met (t : ClassTable) (key : TypeId × Visibility) : Nat := t.count (t.slotFor key)

def bodyFor (t : ClassTable) (key : TypeId × Visibility) : Option Schema :=
  t.body? (t.slotFor key)

theorem slotFor_lt (known : key ∈ t.keys) : t.slotFor key < t.keys.length :=
  List.findIdx_lt_length_of_exists ⟨key, known, by simp⟩

theorem keys_slotFor (known : key ∈ t.keys) : t.keys[t.slotFor key]? = some key := by
  have inside := slotFor_lt known
  have found : decide (t.keys[t.slotFor key] = key) := List.findIdx_getElem (w := inside)
  rw [List.getElem?_eq_getElem inside, of_decide_eq_true found]

theorem slotFor_ne (known : key ∈ t.keys) (differ : other ≠ key)
    (here : t.keys[slot]? = some other) : t.slotFor key ≠ slot := by
  intro same
  have there := keys_slotFor known
  rw [same, here] at there
  exact differ (Option.some.inj there)

theorem slotFor_of_unknown (unknown : key ∉ t.keys) : t.slotFor key = t.keys.length :=
  List.findIdx_eq_length_of_false fun k member => by
    simpa using fun same : k = key => unknown (same ▸ member)

theorem record?_of_unknown (unknown : key ∉ t.keys) : t.record? (t.slotFor key) = none := by
  have last := slotFor_of_unknown unknown
  simp [record?, last, keys]

theorem met_of_unknown (unknown : key ∉ t.keys) : t.met key = 0 := by
  simp [met, count, record?_of_unknown unknown]

theorem known_of_met (met : 0 < t.met key) : key ∈ t.keys := by
  by_cases known : key ∈ t.keys
  · exact known
  · rw [met_of_unknown known] at met
    cases met

theorem Within.slotFor (within : Within t t') (known : key ∈ t.keys) :
    t'.slotFor key = t.slotFor key := by
  obtain ⟨further, grown⟩ := within.keys
  have inside := slotFor_lt known
  unfold ClassTable.slotFor at *
  rw [← grown, List.findIdx_append, if_pos inside]

/-- A class is never met less often than before. -/
theorem Within.met (within : Within t t') (key : TypeId × Visibility) :
    t.met key ≤ t'.met key := by
  by_cases known : key ∈ t.keys
  · unfold ClassTable.met
    rw [within.slotFor known]
    exact within.counts _
  · rw [met_of_unknown known]
    exact Nat.zero_le _

theorem enter_fst : (t.enter id v).1 = t.slotFor (id, v) := by
  have same : (fun r : ClassRecord => r.isFor id v) =
      (fun key => decide (key = (id, v))) ∘ fun r => (r.type, r.visibility) := by
    funext r
    simp [ClassRecord.isFor]
  have first : (t.enter id v).1 = (t.slotOf id v).1 := rfl
  rw [first, slotOf, slotFor, keys, List.findIdx_map, List.findIdx_eq_getD_findIdx?, ← same]
  cases t.records.findIdx? (·.isFor id v) with
  | none => rfl
  | some i => rfl

/-- Entering a class meets it once more, in its slot. -/
theorem met_enter (entered : t.enter id v = (slot, t')) :
    t'.slotFor (id, v) = slot ∧ t'.met (id, v) = t.met (id, v) + 1 := by
  obtain ⟨key, grown, counts⟩ := enter_spec entered
  have first : t.slotFor (id, v) = slot := by rw [← enter_fst, entered]
  have after : t'.slotFor (id, v) = slot := by
    by_cases known : (id, v) ∈ t.keys
    · rw [(within_enter entered).slotFor known, first]
    · rcases grown with same | ⟨-, grown⟩
      · exact absurd (same ▸ List.mem_of_getElem? key) known
      · have last := slotFor_of_unknown known
        rw [← first, last, slotFor, grown, List.findIdx_append]
        unfold slotFor at last
        simp [last]
  refine ⟨after, ?_⟩
  rw [met, met, after, first, (counts slot).1, if_pos rfl]

/-- The other classes are met as often as before, and what is stored for them stays. -/
theorem met_enter_other (entered : t.enter id v = (slot, t')) (differ : key ≠ (id, v)) :
    t'.met key = t.met key := by
  obtain ⟨here, grown, counts⟩ := enter_spec entered
  by_cases known : key ∈ t.keys
  · have inside := (within_enter entered).slotFor known
    have apart : t.slotFor key ≠ slot := by
      rw [← inside]
      refine slotFor_ne ?_ differ.symm here
      exact (within_enter entered).keys.subset known
    rw [met, met, inside, (counts _).1, if_neg apart, Nat.add_zero]
  · have unknown : key ∉ t'.keys := by
      rcases grown with same | ⟨-, grown⟩
      · rwa [same]
      · simpa [grown] using ⟨known, differ⟩
    rw [met_of_unknown known, met_of_unknown unknown]

theorem met_store : (t.store slot body).met key = t.met key := by
  have same : (t.store slot body).slotFor key = t.slotFor key := by simp [slotFor]
  rw [met, same, count_store, ← met]

theorem bodyFor_enter (entered : t.enter id v = (slot, t')) (known : key ∈ t.keys) :
    t'.bodyFor key = t.bodyFor key := by
  rw [bodyFor, (within_enter entered).slotFor known, ((enter_spec entered).2.2 _).2, bodyFor]

/-- What is stored for one class is not stored for another. -/
theorem bodyFor_store_other (here : t.keys[slot]? = some other) (differ : other ≠ key)
    (known : key ∈ t.keys) : (t.store slot body).bodyFor key = t.bodyFor key := by
  have same : (t.store slot body).slotFor key = t.slotFor key := by simp [slotFor]
  rw [bodyFor, same, body?_store_other (slotFor_ne known differ here), bodyFor]

theorem bodyFor_store_same (met : 0 < t.met key) :
    (t.store (t.slotFor key) body).bodyFor key = some body := by
  have same : (t.store (t.slotFor key) body).slotFor key = t.slotFor key := by simp [slotFor]
  rw [bodyFor, same, body?_store_same met]

end ClassTable

namespace Converter

variable {c : Converter} {key : TypeId × Visibility} {act : List Constraints → ConvertM Unit}
  {fuel : Nat} {id : TypeId} {v : Visibility} {site : List Constraints} {slot : Slot}
  {t : ClassTable} {g : Gathered}

def keepBody (c : Converter) (slot : Slot) (id : TypeId) (site : List Constraints)
    (object : ObjectSchema) : ConvertM Schema := do
  let body := c.body (some (.shared slot none)) id site object
  ConvertM.store slot body
  return body

def build (c : Converter) (types : TypeStep) (slot : Slot) (id : TypeId) (v : Visibility)
    (site : List Constraints) : ConvertM Schema :=
  c.objectBy types id v >>= c.keepBody slot id site

/-- The models of a pass that does `act` whenever it sets out to build the object of the class
`key`, which it is told the constraints of the place of use for. -/
def modelWatched (c : Converter) (key : TypeId × Visibility)
    (act : List Constraints → ConvertM Unit) : Nat → ModelStep
  | 0 => fun _ _ _ => throw .endless
  | fuel + 1 => fun id v site => do
    let (slot, count) ← ConvertM.visit id v
    if 1 < count then return .ofKind (.reference (.shared slot none))
    else
      if (id, v) = key then act site
      c.build (c.typesBy (c.modelWatched key act fuel)) slot id v site

/-- Where nothing is done at the class, the pass is an ordinary one. -/
theorem modelWatched_silent (c : Converter) (key : TypeId × Visibility) (fuel : Nat) :
    c.modelWatched key (fun _ => pure ()) fuel = c.modelWithin fuel := by
  induction fuel with
  | zero => rfl
  | succ fuel ih =>
    funext id v site
    simp only [modelWatched, ih, ite_self, pure_bind]
    rfl

theorem outcome_of_met (entered : g.classes.enter id v = (slot, t))
    (met : 0 < g.classes.met (id, v)) :
    outcome (c.modelWatched key act (fuel + 1) id v site) g =
      (.ok (.ofKind (.reference (.shared slot none))), { g with classes := t }) := by
  obtain ⟨same, counted⟩ := ClassTable.met_enter entered
  have again : 1 < t.count slot := by
    rw [ClassTable.met, same] at counted
    omega
  have visited : Yields (ConvertM.visit id v) g (slot, t.count slot) { g with classes := t } :=
    yields_visit.mpr ⟨t, entered, rfl, rfl⟩
  unfold modelWatched
  rw [outcome_bind, visited]
  simp only [again, if_true]
  rfl

theorem outcome_of_new (entered : g.classes.enter id v = (slot, t))
    (new : g.classes.met (id, v) = 0) :
    outcome (c.modelWatched key act (fuel + 1) id v site) g =
      outcome ((if (id, v) = key then act site else pure ()) >>= fun _ =>
        c.build (c.typesBy (c.modelWatched key act fuel)) slot id v site)
        { g with classes := t } := by
  obtain ⟨same, counted⟩ := ClassTable.met_enter entered
  have once : ¬ 1 < t.count slot := by
    rw [ClassTable.met, same] at counted
    omega
  have visited : Yields (ConvertM.visit id v) g (slot, t.count slot) { g with classes := t } :=
    yields_visit.mpr ⟨t, entered, rfl, rfl⟩
  conv => lhs; unfold modelWatched
  rw [outcome_bind, visited]
  simp only [once, if_false]
  split <;> rfl

end Converter
end WireSchema
