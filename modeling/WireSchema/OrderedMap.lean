/-! Maps whose entries stand in the order in which their keys were first put. -/
namespace WireSchema

/-- Entries with distinct keys, in order of insertion. -/
structure OrderedMap (κ ν : Type) where
  entries : List (κ × ν)
  nodup : (entries.map Prod.fst).Nodup

namespace OrderedMap

variable {κ ν : Type}

def empty : OrderedMap κ ν := ⟨[], by simp⟩

instance : Inhabited (OrderedMap κ ν) := ⟨empty⟩

def keys (m : OrderedMap κ ν) : List κ := m.entries.map Prod.fst

def size (m : OrderedMap κ ν) : Nat := m.entries.length

def isEmpty (m : OrderedMap κ ν) : Bool := m.entries.isEmpty

variable [DecidableEq κ]

def putEntry (key : κ) (value : ν) : List (κ × ν) → List (κ × ν)
  | [] => [(key, value)]
  | (k, v) :: rest => if k = key then (key, value) :: rest else (k, v) :: putEntry key value rest

theorem mem_keys_putEntry (key : κ) (value : ν) (entries : List (κ × ν)) (k : κ) :
    k ∈ (putEntry key value entries).map Prod.fst ↔ k = key ∨ k ∈ entries.map Prod.fst := by
  induction entries with
  | nil => simp [putEntry]
  | cons e rest ih =>
    obtain ⟨l, v⟩ := e
    by_cases h : l = key
    · subst h
      simp [putEntry]
    · simp only [putEntry, if_neg h, List.map_cons, List.mem_cons, ih]
      constructor
      · rintro (h | h | h) <;> simp [h]
      · rintro (h | h | h) <;> simp [h]

theorem nodup_putEntry (key : κ) (value : ν) (entries : List (κ × ν))
    (h : (entries.map Prod.fst).Nodup) : ((putEntry key value entries).map Prod.fst).Nodup := by
  induction entries with
  | nil => simp [putEntry]
  | cons e rest ih =>
    obtain ⟨l, v⟩ := e
    rw [List.map_cons, List.nodup_cons] at h
    by_cases hl : l = key
    · subst hl
      simpa [putEntry] using h
    · rw [putEntry, if_neg hl, List.map_cons, List.nodup_cons, mem_keys_putEntry]
      refine ⟨?_, ih h.2⟩
      rintro (e | e)
      · exact hl e
      · exact h.1 e

/-- The map with a value under a key. A known key keeps its position. -/
def put (m : OrderedMap κ ν) (key : κ) (value : ν) : OrderedMap κ ν :=
  ⟨putEntry key value m.entries, nodup_putEntry key value m.entries m.nodup⟩

def get? (m : OrderedMap κ ν) (key : κ) : Option ν := m.entries.lookup key

def contains (m : OrderedMap κ ν) (key : κ) : Bool := (m.get? key).isSome

def index? (m : OrderedMap κ ν) (key : κ) : Option Nat :=
  m.entries.findIdx? fun e => e.1 = key

def entryAt? (m : OrderedMap κ ν) (i : Nat) : Option (κ × ν) := m.entries[i]?

/-- Of several entries with one key the first gives the position and the last the value. -/
def ofEntries (entries : List (κ × ν)) : OrderedMap κ ν :=
  entries.foldl (fun m e => m.put e.1 e.2) empty

theorem lookup_putEntry_self (key : κ) (value : ν) (entries : List (κ × ν)) :
    (putEntry key value entries).lookup key = some value := by
  induction entries with
  | nil => simp [putEntry]
  | cons e rest ih =>
    obtain ⟨l, v⟩ := e
    by_cases hl : l = key
    · simp [putEntry, hl]
    · have hk : (key == l) = false := by simpa using fun e => hl e.symm
      simp [putEntry, hl, List.lookup_cons, hk, ih]

@[simp] theorem get?_put_self (m : OrderedMap κ ν) (key : κ) (value : ν) :
    (m.put key value).get? key = some value := lookup_putEntry_self key value m.entries

theorem lookup_putEntry_other {key k : κ} (other : k ≠ key) (value : ν) (entries : List (κ × ν)) :
    (putEntry key value entries).lookup k = entries.lookup k := by
  have differs : (k == key) = false := by simpa using other
  induction entries with
  | nil => simp [putEntry, List.lookup_cons, differs]
  | cons e rest ih =>
    obtain ⟨l, v⟩ := e
    by_cases same : l = key
    · subst same
      simp [putEntry, List.lookup_cons, differs]
    · simp [putEntry, same, List.lookup_cons, ih]

theorem get?_put_other (m : OrderedMap κ ν) {key k : κ} (other : k ≠ key) (value : ν) :
    (m.put key value).get? k = m.get? k := lookup_putEntry_other other value m.entries

theorem putEntry_of_absent {key : κ} {value : ν} {entries : List (κ × ν)}
    (absent : key ∉ entries.map Prod.fst) :
    putEntry key value entries = entries ++ [(key, value)] := by
  induction entries with
  | nil => rfl
  | cons e rest ih =>
    rw [List.map_cons, List.mem_cons, not_or] at absent
    rw [putEntry, if_neg (Ne.symm absent.1), ih absent.2, List.cons_append]

theorem keys_put_of_mem {m : OrderedMap κ ν} {key : κ} (known : key ∈ m.keys) (value : ν) :
    (m.put key value).keys = m.keys := by
  have kept (entries : List (κ × ν)) (known : key ∈ entries.map Prod.fst) :
      (putEntry key value entries).map Prod.fst = entries.map Prod.fst := by
    induction entries with
    | nil => cases known
    | cons e rest ih =>
      by_cases here : e.1 = key
      · simp [putEntry, here]
      · have later : key ∈ rest.map Prod.fst :=
          (List.mem_cons.mp known).resolve_left (Ne.symm here)
        simp [putEntry, here, ih later]
  exact kept m.entries known

theorem keys_put_of_not_mem {m : OrderedMap κ ν} {key : κ} (absent : key ∉ m.keys) (value : ν) :
    (m.put key value).keys = m.keys ++ [key] := by
  have put : (m.put key value).entries = m.entries ++ [(key, value)] := putEntry_of_absent absent
  rw [keys, put, List.map_append, List.map_singleton, keys]

theorem isSome_get?_iff {m : OrderedMap κ ν} {key : κ} : (m.get? key).isSome ↔ key ∈ m.keys := by
  rw [get?, ← Option.ne_none_iff_isSome, ne_eq, List.lookup_eq_none_iff, keys, List.mem_map]
  constructor
  · intro found
    obtain ⟨e, member, same⟩ : ∃ e ∈ m.entries, key = e.1 := by simpa using found
    exact ⟨e, member, same.symm⟩
  · rintro ⟨e, member, rfl⟩ absent
    simpa using absent e member

/-- A key stands where it is listed first. -/
theorem keys_ofEntries (entries : List (κ × ν)) :
    (ofEntries entries).keys = (entries.map Prod.fst).eraseDups := by
  have fold (entries : List (κ × ν)) (m : OrderedMap κ ν) :
      (entries.foldl (fun m e => m.put e.1 e.2) m).keys =
        m.keys ++ ((entries.map Prod.fst).removeAll m.keys).eraseDups := by
    induction entries generalizing m with
    | nil => simp
    | cons e rest ih =>
      rw [List.foldl_cons, ih, List.map_cons, List.cons_removeAll]
      by_cases known : e.1 ∈ m.keys
      · simp [keys_put_of_mem known, known]
      · have others : (rest.map Prod.fst).removeAll (m.keys ++ [e.1]) =
            ((rest.map Prod.fst).removeAll m.keys).filter (!· == e.1) := by
          rw [List.removeAll, List.removeAll, List.filter_filter]
          exact List.filter_congr fun k _ => by simp [Bool.and_comm, BEq.beq]
        simp [keys_put_of_not_mem known, known, List.eraseDups_cons, others]
  have all : (entries.map Prod.fst).removeAll [] = entries.map Prod.fst := by simp [List.removeAll]
  have made := fold entries empty
  rwa [show (empty : OrderedMap κ ν).keys = [] from rfl, all, List.nil_append] at made

theorem entries_ofEntries {entries : List (κ × ν)} (distinct : (entries.map Prod.fst).Nodup) :
    (ofEntries entries).entries = entries := by
  have fold (later : List (κ × ν)) (m : OrderedMap κ ν)
      (distinct : ((m.entries ++ later).map Prod.fst).Nodup) :
      (later.foldl (fun m e => m.put e.1 e.2) m).entries = m.entries ++ later := by
    induction later generalizing m with
    | nil => simp
    | cons e later ih =>
      have absent : e.1 ∉ m.entries.map Prod.fst := by
        intro known
        rw [List.map_append, List.nodup_append] at distinct
        exact distinct.2.2 e.1 known e.1 (by simp) rfl
      have put : (m.put e.1 e.2).entries = m.entries ++ [e] := putEntry_of_absent absent
      rw [List.foldl_cons, ih _ (by simpa [put] using distinct), put, List.append_assoc,
        List.singleton_append]
  exact fold entries empty distinct

theorem ofEntries_concat (entries : List (κ × ν)) (key : κ) (value : ν) :
    ofEntries (entries ++ [(key, value)]) = (ofEntries entries).put key value := by
  simp [ofEntries]

/-- Of several entries with one key the last gives the value. -/
theorem get?_ofEntries_eq (entries : List (κ × ν)) (key : κ) :
    (ofEntries entries).get? key = entries.reverse.lookup key := by
  have fold (entries : List (κ × ν)) (m : OrderedMap κ ν) :
      (entries.foldl (fun m e => m.put e.1 e.2) m).get? key =
        (entries.reverse.lookup key).or (m.get? key) := by
    induction entries generalizing m with
    | nil => rfl
    | cons e rest ih =>
      obtain ⟨k, v⟩ := e
      have entered : (m.put k v).get? key = ([(k, v)].lookup key).or (m.get? key) := by
        by_cases same : key = k
        · simp [same]
        · have differs : (key == k) = false := by simpa using same
          simp [get?_put_other m same, List.lookup_cons, differs]
      rw [List.foldl_cons, ih, entered, List.reverse_cons, List.lookup_append, Option.or_assoc]
  rw [ofEntries, fold, show (empty : OrderedMap κ ν).get? key = none from rfl, Option.or_none]

theorem mem_of_get? {m : OrderedMap κ ν} {key : κ} {value : ν} (found : m.get? key = some value) :
    (key, value) ∈ m.entries := by
  obtain ⟨before, after, eq, -⟩ := List.lookup_eq_some_iff.mp found
  simp [eq]

theorem get?_of_mem {m : OrderedMap κ ν} {key : κ} {value : ν} (member : (key, value) ∈ m.entries) :
    m.get? key = some value := by
  obtain ⟨before, after, eq⟩ := List.append_of_mem member
  refine List.lookup_eq_some_iff.mpr ⟨before, after, eq, fun e earlier => ?_⟩
  have distinct := m.nodup
  rw [eq, List.map_append, List.map_cons] at distinct
  have apart := (List.nodup_append.mp distinct).2.2 e.1 (List.mem_map_of_mem earlier) key
  simpa using Ne.symm (apart List.mem_cons_self)

/-- Where keys are distinct each of them has the value that it stands with. -/
theorem get?_ofEntries {entries : List (κ × ν)} (distinct : (entries.map Prod.fst).Nodup)
    {key : κ} {value : ν} (member : (key, value) ∈ entries) :
    (ofEntries entries).get? key = some value := by
  rw [get?, entries_ofEntries distinct]
  exact get?_of_mem (m := ⟨entries, distinct⟩) member

/-- A map is known by its keys and their values. -/
theorem entries_eq_map (m : OrderedMap κ ν) (other : ν) :
    m.entries = m.keys.map fun key => (key, (m.get? key).getD other) := by
  rw [keys, List.map_map]
  refine (List.map_id' _).symm.trans (List.map_congr_left fun e member => ?_)
  simp [get?_of_mem member]

theorem index?_eq_some_iff {m : OrderedMap κ ν} {key : κ} {i : Nat} :
    m.index? key = some i ↔ ∃ value, m.entryAt? i = some (key, value) := by
  unfold index? entryAt?
  rw [List.findIdx?_eq_some_iff_getElem]
  constructor
  · rintro ⟨inside, same, -⟩
    exact ⟨m.entries[i].2, by rw [List.getElem?_eq_getElem inside, ← of_decide_eq_true same]⟩
  · rintro ⟨value, here⟩
    obtain ⟨inside, here⟩ := List.getElem?_eq_some_iff.mp here
    refine ⟨inside, by simp [here], fun j before => ?_⟩
    have apart := List.pairwise_iff_getElem.mp m.nodup j i (by simp; omega) (by simpa) before
    simpa [here] using apart

theorem mem_of_mem_ofEntries {entries : List (κ × ν)} {e : κ × ν}
    (member : e ∈ (ofEntries entries).entries) : e ∈ entries := by
  have last := get?_of_mem member
  rw [get?_ofEntries_eq] at last
  obtain ⟨before, after, eq, -⟩ := List.lookup_eq_some_iff.mp last
  rw [← List.mem_reverse, eq]
  simp

/-- Under one key there is one value, the last. -/
theorem entries_ofEntries_of_one_key (key : κ) {values : List ν} {value : ν}
    (last : values.getLast? = some value) :
    (ofEntries (values.map (key, ·))).entries = [(key, value)] := by
  have fold (m : OrderedMap κ ν) (first : ν) (rest : List ν) (single : m.entries = [(key, first)]) :
      ((rest.map (key, ·)).foldl (fun m e => m.put e.1 e.2) m).entries =
        [(key, rest.getLast?.getD first)] := by
    induction rest generalizing m first with
    | nil => exact single
    | cons next rest ih =>
      have put : (m.put key next).entries = [(key, next)] := by simp [put, single, putEntry]
      rw [List.map_cons, List.foldl_cons, ih _ next put, List.getLast?_cons, Option.getD_some]
  cases values with
  | nil => cases last
  | cons first rest =>
    rw [List.getLast?_cons] at last
    obtain rfl := Option.some.inj last
    exact fold _ first rest rfl

end OrderedMap
end WireSchema
