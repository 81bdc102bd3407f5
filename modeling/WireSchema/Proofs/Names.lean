import WireSchema.Proofs.Table

/-! The names that classes get when a pass ends. A name that is asked for twice is numbered, so no
two classes have one name, and a class has one exactly if it was met at least twice. -/
namespace WireSchema

namespace Naming

variable {base : String} {used : List String}

theorem numbered_injective {i j : Nat} (h : base ++ toString i = base ++ toString j) : i = j := by
  have digits : Nat.toDigits 10 i = Nat.toDigits 10 j := by
    simpa [← Nat.toList_repr, ← String.toList_inj] using h
  simpa using congrArg (Nat.ofDigitChars 10 · 0) digits

/-- The search stops at the first number that is free, or when it has tried as many as it may. -/
theorem firstFree_spec (base : String) (used : List String) (fuel i : Nat) :
    ∃ j, firstFree base used fuel i = base ++ toString j ∧ i ≤ j ∧
      (∀ k, i ≤ k → k < j → base ++ toString k ∈ used) ∧
      (j < i + fuel → base ++ toString j ∉ used) ∧ j ≤ i + fuel := by
  induction fuel generalizing i with
  | zero => exact ⟨i, rfl, Nat.le_refl i, fun k _ _ => by omega, by omega, Nat.le_refl i⟩
  | succ fuel ih =>
    unfold firstFree
    split
    · rename_i taken
      obtain ⟨j, eq, after, before, free, last⟩ := ih (i + 1)
      refine ⟨j, eq, by omega, fun k from_i to_j => ?_, fun h => free (by omega), by omega⟩
      rcases Nat.eq_or_lt_of_le from_i with rfl | later
      · simpa using taken
      · exact before k later to_j
    · rename_i free
      exact ⟨i, rfl, Nat.le_refl i, fun k _ _ => by omega, fun _ => by simpa using free, by omega⟩

/-- More distinct names than there are used ones are not all used. -/
theorem exists_free (base : String) (used : List String) (i : Nat) :
    ∃ k, i ≤ k ∧ k ≤ i + used.length ∧ base ++ toString k ∉ used := by
  refine Classical.byContradiction fun nowhere => ?_
  simp only [not_exists, not_and, Classical.not_not] at nowhere
  have distinct : ((List.range' i (used.length + 1)).map (base ++ toString ·)).Nodup :=
    List.pairwise_map.mpr (List.Pairwise.imp (fun ne same => ne (numbered_injective same))
      List.nodup_range')
  have := distinct.length_le_of_subset fun name member => by
    obtain ⟨k, inside, rfl⟩ := List.mem_map.mp member
    rw [List.mem_range'_1] at inside
    exact nowhere k inside.1 (by omega)
  rw [List.length_map, List.length_range'] at this
  omega

/-- A name that was given out is not used before. -/
theorem unique_fresh (base : String) (used : List String) : (unique base used).1 ∉ used := by
  simp only [unique]
  split
  · obtain ⟨j, eq, after, before, free, last⟩ := firstFree_spec base used used.length 2
    rw [eq]
    rcases Nat.lt_or_eq_of_le last with early | rfl
    · exact free early
    · obtain ⟨k, from_two, to_end, unused⟩ := exists_free base used 2
      rcases Nat.lt_or_eq_of_le to_end with early | rfl
      · exact absurd (before k from_two early) unused
      · exact unused
  · rename_i free
    simpa using free

theorem unique_used (base : String) (used : List String) :
    (unique base used).2 = (unique base used).1 :: used := rfl

end Naming

namespace ClassTable

variable {wanted : ClassRecord → String} {t : ClassTable} {graph : TypeGraph} {stage : Stage}
  {slot s : Slot}

/-- Naming sets the name of a record, and that of shared classes only. -/
theorem nameRecords_getElem? {used : List String} {records : List ClassRecord} {i : Nat}
    {r : ClassRecord} (here : records[i]? = some r) :
    ∃ name, (nameRecords wanted used records)[i]? = some { r with name } ∧
      name.isSome = r.isShared := by
  induction records generalizing used i with
  | nil => simp at here
  | cons first rest ih =>
    unfold nameRecords
    cases i with
    | zero =>
      obtain rfl : first = r := by simpa using here
      split
      · exact ⟨some _, rfl, by simp [*]⟩
      · exact ⟨none, rfl, by simp [*]⟩
    | succ i =>
      split <;> exact ih (by simpa using here)

theorem length_nameRecords (wanted : ClassRecord → String) (used : List String)
    (records : List ClassRecord) :
    (nameRecords wanted used records).length = records.length := by
  induction records generalizing used with
  | nil => rfl
  | cons first rest ih =>
    unfold nameRecords
    split <;> simp [ih]

/-- Names are given out once, and none that was used before. -/
theorem names_distinct (wanted : ClassRecord → String) (used : List String)
    (records : List ClassRecord) :
    ((nameRecords wanted used records).filterMap (·.name)).Nodup ∧
      ∀ name ∈ (nameRecords wanted used records).filterMap (·.name), name ∉ used := by
  induction records generalizing used with
  | nil => simp [nameRecords]
  | cons first rest ih =>
    unfold nameRecords
    split
    · obtain ⟨distinct, unused⟩ := ih (Naming.unique (wanted first) used).2
      rw [Naming.unique_used] at distinct unused
      have fresh := Naming.unique_fresh (wanted first) used
      simp only [Naming.unique_used, List.filterMap_cons, List.nodup_cons, List.mem_cons]
      refine ⟨⟨fun again => unused _ again List.mem_cons_self, distinct⟩, ?_⟩
      rintro name (rfl | member)
      · exact fresh
      · exact fun known => unused name member (List.mem_cons_of_mem _ known)
    · simpa using ih used

theorem record?_finalize (graph : TypeGraph) (stage : Stage) {r : ClassRecord}
    (known : t.record? slot = some r) :
    ∃ name, (t.finalize graph stage).record? slot = some { r with name } ∧
      name.isSome = r.isShared := nameRecords_getElem? known

theorem isSome_nameOf_finalize (graph : TypeGraph) (stage : Stage) :
    ((t.finalize graph stage).nameOf slot).isSome ↔ 1 < t.count slot := by
  cases known : t.record? slot with
  | none =>
    have absent : (t.finalize graph stage).record? slot = none := by
      rw [record?, List.getElem?_eq_none_iff] at known ⊢
      exact Nat.le_trans (Nat.le_of_eq (length_nameRecords ..)) known
    simp [nameOf, absent, count, known]
  | some r =>
    obtain ⟨name, named, isShared⟩ := record?_finalize graph stage known
    simp only [nameOf, named, Option.bind_some, isShared, count_of_record? known]
    exact decide_eq_true_iff

theorem nameOf_finalize (graph : TypeGraph) (stage : Stage) (shared : 1 < t.count slot) :
    ∃ name, (t.finalize graph stage).nameOf slot = some name :=
  Option.isSome_iff_exists.mp ((isSome_nameOf_finalize graph stage).mpr shared)

theorem nameOf_injective {name : String} (here : (t.finalize graph stage).nameOf slot = some name)
    (there : (t.finalize graph stage).nameOf s = some name) : slot = s := by
  have apart := List.pairwise_iff_getElem.mp
    (List.pairwise_filterMap.mp (names_distinct (t.wantedName graph stage) [] t.records).1)
  obtain ⟨r, known, named⟩ := Option.bind_eq_some_iff.mp here
  obtain ⟨r', known', named'⟩ := Option.bind_eq_some_iff.mp there
  obtain ⟨inside, rfl⟩ := List.getElem?_eq_some_iff.mp known
  obtain ⟨inside', rfl⟩ := List.getElem?_eq_some_iff.mp known'
  rcases Nat.lt_trichotomy slot s with before | same | after
  · exact absurd rfl (apart slot s inside inside' before name named name named')
  · exact same
  · exact absurd rfl (apart s slot inside' inside after name named' name named)

theorem definition?_eq_some {r : ClassRecord} {name : String} {definition : Schema} :
    t.definition? r = some (name, definition) ↔
      ∃ body, r.name = some name ∧ r.body = some body ∧ body.resolve t.nameOf = definition := by
  unfold definition?
  split <;> simp_all

theorem definition_keys_sublist (t : ClassTable) (records : List ClassRecord) :
    ((records.filterMap t.definition?).map Prod.fst).Sublist (records.filterMap (·.name)) := by
  induction records with
  | nil => exact .slnil
  | cons r rest ih =>
    cases named : r.name with
    | none =>
      have undefined : t.definition? r = none := by simp [definition?, named]
      simpa [undefined, named] using ih
    | some name =>
      cases stored : r.body with
      | none =>
        have undefined : t.definition? r = none := by simp [definition?, stored]
        simpa [undefined, named] using ih.cons name
      | some body =>
        have defined : t.definition? r = some (name, body.resolve t.nameOf) := by
          simp [definition?, named, stored]
        simpa [defined, named] using ih

/-- The definition under the name of a class is what is stored for it, with all names set. -/
theorem definitions_get? {name : String} {body : Schema}
    (named : (t.finalize graph stage).nameOf slot = some name) (stored : t.body? slot = some body) :
    (t.finalize graph stage).definitions.get? name =
      some (body.resolve (t.finalize graph stage).nameOf) := by
  obtain ⟨r, known, body⟩ := Option.bind_eq_some_iff.mp stored
  obtain ⟨_, same, -⟩ := record?_finalize graph stage known
  obtain ⟨r', known', name⟩ := Option.bind_eq_some_iff.mp named
  obtain rfl := Option.some.inj (known'.symm.trans same)
  refine OrderedMap.get?_ofEntries (List.Nodup.sublist (definition_keys_sublist _ _)
    (names_distinct _ [] t.records).1) (List.mem_filterMap.mpr ⟨_, List.mem_of_getElem? same, ?_⟩)
  exact definition?_eq_some.mpr ⟨_, name, body, rfl⟩

/-- Every definition is what is stored for some class. -/
theorem stored_of_mem_definitions {name : String} {definition : Schema}
    (member : (name, definition) ∈ (t.finalize graph stage).definitions.entries) :
    ∃ slot body, t.body? slot = some body ∧ (t.finalize graph stage).nameOf slot = some name ∧
      definition = body.resolve (t.finalize graph stage).nameOf := by
  obtain ⟨r', member, eq⟩ := List.mem_filterMap.mp (OrderedMap.mem_of_mem_ofEntries member)
  obtain ⟨body, name, stored, resolved⟩ := definition?_eq_some.mp eq
  obtain ⟨slot, here⟩ := List.mem_iff_getElem?.mp member
  have inside : slot < t.records.length := by
    rw [← length_nameRecords (t.wantedName graph stage) []]
    exact (List.getElem?_eq_some_iff.mp here).1
  have known : t.record? slot = some t.records[slot] := List.getElem?_eq_getElem inside
  obtain ⟨_, same, -⟩ := record?_finalize graph stage known
  obtain rfl := Option.some.inj (here.symm.trans same)
  exact ⟨slot, body, by simpa [body?, known] using stored, by simpa [nameOf, same] using name,
    resolved.symm⟩

end ClassTable
end WireSchema
