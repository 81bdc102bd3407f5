import WireSchema.ClassTable

/-! The class table of a pass while it grows. A slot keeps its class, no class has two slots, and
only the slot of the class that is met changes its count. -/
namespace WireSchema.ClassTable

variable {t t' : ClassTable} {slot s : Slot} {id : TypeId} {v : Visibility} {body : Schema}

def body? (t : ClassTable) (slot : Slot) : Option Schema := (t.record? slot).bind (·.body)

def keys (t : ClassTable) : List (TypeId × Visibility) :=
  t.records.map fun r => (r.type, r.visibility)

theorem keys_getElem? : t.keys[slot]? = (t.record? slot).map fun r => (r.type, r.visibility) := by
  simp [keys, record?]

theorem count_of_record? {r : ClassRecord} (h : t.record? slot = some r) :
    t.count slot = r.count := by simp [count, h]

theorem body?_of_record? {r : ClassRecord} (h : t.record? slot = some r) :
    t.body? slot = r.body := by simp [body?, h]

theorem record?_of_count_pos (h : 0 < t.count slot) : ∃ r, t.record? slot = some r := by
  cases found : t.record? slot with
  | none => simp [count, found] at h
  | some r => exact ⟨r, rfl⟩

theorem record?_update (f : ClassRecord → ClassRecord) :
    (t.update slot f).record? s = if s = slot then (t.record? s).map f else t.record? s := by
  simp only [update, record?, List.getElem?_modify]
  by_cases same : slot = s
  · simp [same]
  · simp [same, Ne.symm same]

theorem keys_update {f : ClassRecord → ClassRecord}
    (keeps : ∀ r, (f r).type = r.type ∧ (f r).visibility = r.visibility) :
    (t.update slot f).keys = t.keys := by
  apply List.ext_getElem?
  intro s
  rw [keys_getElem?, keys_getElem?, record?_update]
  split <;> simp [Option.map_map, Function.comp_def, keeps]

@[simp] theorem keys_store : (t.store slot body).keys = t.keys := keys_update fun _ => ⟨rfl, rfl⟩

@[simp] theorem keys_visit : (t.visit slot).keys = t.keys := keys_update fun _ => ⟨rfl, rfl⟩

theorem record?_store : (t.store slot body).record? s =
    if s = slot then (t.record? s).map ({ · with body := some body }) else t.record? s :=
  record?_update _

theorem record?_visit : (t.visit slot).record? s =
    if s = slot then (t.record? s).map (fun r => { r with count := r.count + 1 })
    else t.record? s :=
  record?_update _

@[simp] theorem count_store : (t.store slot body).count s = t.count s := by
  simp only [count, record?_store]
  split
  · cases t.record? s <;> rfl
  · rfl

theorem body?_store_other (other : s ≠ slot) : (t.store slot body).body? s = t.body? s := by
  simp [body?, record?_store, other]

theorem body?_store_same (counted : 0 < t.count slot) :
    (t.store slot body).body? slot = some body := by
  obtain ⟨r, h⟩ := record?_of_count_pos counted
  simp [body?, record?_store, h]

theorem slotOf_spec (found : t.slotOf id v = (slot, t')) :
    t'.keys[slot]? = some (id, v) ∧
      (t' = t ∨ (id, v) ∉ t.keys ∧ t'.keys = t.keys ++ [(id, v)]) ∧
      ∀ s, t'.count s = t.count s ∧ t'.body? s = t.body? s := by
  simp only [slotOf] at found
  cases index : t.records.findIdx? (·.isFor id v) with
  | some i =>
    simp only [index, Prod.mk.injEq] at found
    obtain ⟨rfl, rfl⟩ := found
    obtain ⟨inside, isFor, _⟩ := List.findIdx?_eq_some_iff_getElem.mp index
    simp only [ClassRecord.isFor, Bool.and_eq_true, decide_eq_true_eq] at isFor
    refine ⟨?_, .inl rfl, fun _ => ⟨rfl, rfl⟩⟩
    simp [keys, List.getElem?_eq_getElem inside, isFor]
  | none =>
    simp only [index, Prod.mk.injEq] at found
    obtain ⟨rfl, rfl⟩ := found
    have absent : (id, v) ∉ t.keys := by
      intro member
      obtain ⟨r, known, same⟩ := List.mem_map.mp member
      have other := List.findIdx?_eq_none_iff.mp index r known
      simp_all [ClassRecord.isFor]
    refine ⟨by simp [keys], .inr ⟨absent, by simp [keys]⟩, fun s => ?_⟩
    have lookup : record? ⟨t.records ++ [{ type := id, visibility := v }]⟩ s =
        if s = t.records.length then some { type := id, visibility := v } else t.record? s := by
      rcases Nat.lt_trichotomy s t.records.length with less | rfl | more
      · simp [record?, List.getElem?_append_left less, Nat.ne_of_lt less]
      · simp [record?]
      · rw [if_neg (Nat.ne_of_gt more), record?, record?, List.getElem?_eq_none,
          List.getElem?_eq_none (Nat.le_of_lt more)]
        simpa using Nat.succ_le_of_lt more
    simp only [count, body?, lookup]
    split
    · simp [*, record?]
    · exact ⟨rfl, rfl⟩

theorem enter_spec (entered : t.enter id v = (slot, t')) :
    t'.keys[slot]? = some (id, v) ∧
      (t'.keys = t.keys ∨ (id, v) ∉ t.keys ∧ t'.keys = t.keys ++ [(id, v)]) ∧
      ∀ s, t'.count s = t.count s + (if s = slot then 1 else 0) ∧ t'.body? s = t.body? s := by
  cases found : t.slotOf id v with | mk s' t₁ => ?_
  simp only [enter, found, Prod.mk.injEq] at entered
  obtain ⟨rfl, rfl⟩ := entered
  obtain ⟨key, grown, same⟩ := slotOf_spec found
  refine ⟨by simpa using key, ?_, fun s => ?_⟩
  · rcases grown with rfl | grown
    · exact .inl (by simp)
    · exact .inr (by simpa using grown)
  · have := same s
    by_cases here : s = s'
    · subst here
      have known : ∃ r, t₁.record? s = some r := by
        rw [keys_getElem?] at key
        cases h : t₁.record? s with
        | none => simp [h] at key
        | some r => exact ⟨r, rfl⟩
      obtain ⟨r, known⟩ := known
      simp_all [count, body?, record?_visit]
    · simp_all [count, body?, record?_visit]

theorem count_enter_self (entered : t.enter id v = (slot, t')) :
    t'.count slot = t.count slot + 1 := by
  simpa using ((enter_spec entered).2.2 slot).1

theorem count_enter_other (entered : t.enter id v = (slot, t')) (other : s ≠ slot) :
    t'.count s = t.count s := by
  simpa [other] using ((enter_spec entered).2.2 s).1

/-- A slot of the first table has the same class in the second, which was met at least as often. -/
structure Within (t t' : ClassTable) : Prop where
  keys : t.keys <+: t'.keys
  counts : ∀ s, t.count s ≤ t'.count s

theorem Within.refl (t : ClassTable) : Within t t := ⟨List.prefix_rfl, fun _ => Nat.le_refl _⟩

theorem Within.trans {t₁ t₂ t₃ : ClassTable} (first : Within t₁ t₂) (second : Within t₂ t₃) :
    Within t₁ t₃ where
  keys := first.keys.trans second.keys
  counts s := Nat.le_trans (first.counts s) (second.counts s)

theorem Within.key {key : TypeId × Visibility} (within : Within t t')
    (h : t.keys[slot]? = some key) : t'.keys[slot]? = some key := by
  obtain ⟨further, eq⟩ := within.keys
  rw [← eq, List.getElem?_append_left (List.getElem?_eq_some_iff.mp h).1, h]

theorem within_enter (entered : t.enter id v = (slot, t')) : Within t t' where
  keys := by
    rcases (enter_spec entered).2.1 with same | ⟨_, grown⟩
    · exact same ▸ List.prefix_rfl
    · exact grown ▸ List.prefix_append _ _
  counts s := by
    rw [((enter_spec entered).2.2 s).1]
    exact Nat.le_add_right _ _

theorem within_store : Within t (t.store slot body) where
  keys := by simp
  counts s := by simp

/-- The only class that can be new after one was entered is that one. -/
theorem key_before_enter {key : TypeId × Visibility} (entered : t.enter id v = (slot, t'))
    (other : s ≠ slot) (known : t'.keys[s]? = some key) : t.keys[s]? = some key := by
  obtain ⟨here, grown, _⟩ := enter_spec entered
  rcases grown with same | ⟨absent, grown⟩
  · rwa [← same]
  rw [grown] at known here
  -- Both slots are in the longer list, and the entered class is not in the shorter one.
  have inside (i : Nat) (key : TypeId × Visibility)
      (known : (t.keys ++ [(id, v)])[i]? = some key) : i < t.keys.length ∨ i = t.keys.length := by
    have := (List.getElem?_eq_some_iff.mp known).1
    rw [List.length_append, List.length_singleton] at this
    omega
  rcases inside s key known with less | last
  · rwa [List.getElem?_append_left less] at known
  rcases inside slot _ here with less | last'
  · rw [List.getElem?_append_left less] at here
    exact absurd (List.mem_of_getElem? here) absent
  · exact absurd (last.trans last'.symm) other

/-- If all classes of a table were met, they still are when one is entered. -/
theorem counted_enter (entered : t.enter id v = (slot, t'))
    (met : ∀ s key, t.keys[s]? = some key → 0 < t.count s) (s : Slot) (key : TypeId × Visibility)
    (known : t'.keys[s]? = some key) : 0 < t'.count s := by
  by_cases same : s = slot
  · subst same
    rw [count_enter_self entered]
    exact Nat.succ_pos _
  · rw [count_enter_other entered same]
    exact met s key (key_before_enter entered same known)

/-- No class has two slots. -/
def Distinct (t : ClassTable) : Prop := t.keys.Nodup

theorem distinct_empty : Distinct {} := List.nodup_nil

theorem Distinct.slot_eq {key : TypeId × Visibility} (distinct : t.Distinct)
    (here : t.keys[slot]? = some key) (there : t.keys[s]? = some key) : s = slot :=
  (List.getElem?_inj (List.getElem?_eq_some_iff.mp there).1 distinct).mp (there.trans here.symm)

theorem Distinct.enter (distinct : t.Distinct) (entered : t.enter id v = (slot, t')) :
    t'.Distinct := by
  unfold Distinct at *
  rcases (enter_spec entered).2.1 with same | ⟨absent, grown⟩
  · rwa [same]
  · rw [grown]
    exact List.nodup_append.mpr ⟨distinct, by simp, fun a known b new => by
      rw [List.mem_singleton.mp new]
      exact fun e => absent (e ▸ known)⟩

theorem Distinct.store (distinct : t.Distinct) : (t.store slot body).Distinct := by
  simpa [Distinct] using distinct

end WireSchema.ClassTable
