import Mathlib.Data.Finset.Card
import Mathlib.Order.Bounds.Basic
import WireSchema.Proofs.Names

/-! The search for a name without a bound on the numbers that it tries. Every candidate is put among
the used names, and the first one that was not among them is taken. Numbered bases are distinct and
finitely many names are used, so the search always ends, and at the number where the bounded one
does. -/
namespace WireSchema.Naming

variable {base name : String} {names names' : Finset String} {used : List String} {i j : Nat}

/-- The numbers from `i` on that make a base free. -/
def freeFrom (base : String) (names : Finset String) (i : Nat) : Set Nat :=
  {k | i ≤ k ∧ base ++ toString k ∉ names}

/-- The tries from number `i` on, with the name that is taken and the names that are used then. A
try puts its candidate among the used names and goes on if it was there. -/
inductive Tries (base : String) : Nat → Finset String → String → Finset String → Prop
  | free {i : Nat} {names : Finset String} : base ++ toString i ∉ names →
      Tries base i names (base ++ toString i) (insert (base ++ toString i) names)
  | taken {i : Nat} {names names' : Finset String} {name : String} : base ++ toString i ∈ names →
      Tries base (i + 1) (insert (base ++ toString i) names) name names' →
      Tries base i names name names'

/-- The whole search: the base is tried first, and then numbers from 2 on. -/
inductive Takes (base : String) (names : Finset String) : String → Finset String → Prop
  | base : base ∉ names → Takes base names base (insert base names)
  | numbered {name : String} {names' : Finset String} : base ∈ names →
      Tries base 2 (insert base names) name names' → Takes base names name names'

theorem isLeast_freeFrom (free : base ++ toString i ∉ names) :
    IsLeast (freeFrom base names i) i :=
  ⟨⟨Nat.le_refl i, free⟩, fun _ later => later.1⟩

/-- A try that fails leaves the numbers that can be found as they are. -/
theorem freeFrom_succ (taken : base ++ toString i ∈ names) :
    freeFrom base names (i + 1) = freeFrom base names i := by
  ext k
  constructor
  · rintro ⟨later, free⟩
    exact ⟨by omega, free⟩
  · rintro ⟨here, free⟩
    have other : i ≠ k := by
      rintro rfl
      exact free taken
    exact ⟨by omega, free⟩

theorem Tries.isLeast (run : Tries base i names name names') :
    ∃ j, IsLeast (freeFrom base names i) j ∧ name = base ++ toString j ∧
      names' = insert name names := by
  induction run with
  | free free => exact ⟨_, isLeast_freeFrom free, rfl, rfl⟩
  | taken taken _ ih =>
    rw [Finset.insert_eq_of_mem taken, freeFrom_succ taken] at ih
    exact ih

/-- Where a number is free, the tries come to the least one. -/
theorem tries_of_isLeast (least : IsLeast (freeFrom base names i) j) :
    Tries base i names (base ++ toString j) (insert (base ++ toString j) names) := by
  -- By induction on the way that is left: until then every number on it is taken.
  obtain ⟨n, rfl⟩ := Nat.exists_eq_add_of_le least.1.1
  induction n generalizing i with
  | zero => exact .free least.1.2
  | succ n ih =>
    have taken : base ++ toString i ∈ names := by
      by_contra free
      have := least.2 (isLeast_freeFrom free).1
      omega
    have next : i + (n + 1) = i + 1 + n := by omega
    rw [next] at least ⊢
    rw [← freeFrom_succ taken] at least
    refine .taken taken ?_
    rw [Finset.insert_eq_of_mem taken]
    exact ih least

theorem tries_iff : Tries base i names name names' ↔
    ∃ j, IsLeast (freeFrom base names i) j ∧ name = base ++ toString j ∧
      names' = insert name names := by
  refine ⟨Tries.isLeast, ?_⟩
  rintro ⟨j, least, rfl, rfl⟩
  exact tries_of_isLeast least

/-- The base is used itself, so one number less than there are used names can be taken. -/
theorem le_of_isLeast (taken : base ∈ names) (least : IsLeast (freeFrom base names 2) i) :
    i ≤ names.card + 1 := by
  obtain ⟨k, from_two, to_end, free⟩ := exists_free base (names.erase base).toList 2
  have unused : base ++ toString k ∉ names := by simpa using free
  have first := least.2 ⟨from_two, unused⟩
  rw [Finset.length_toList, Finset.card_erase_of_mem taken] at to_end
  have := Finset.card_pos.mpr ⟨base, taken⟩
  omega

theorem unique_of_free (free : base ∉ used) : (unique base used).1 = base := by
  simp [unique, free]

theorem unique_of_taken (taken : base ∈ used) :
    ∃ i, IsLeast (freeFrom base used.toFinset 2) i ∧
      (unique base used).1 = base ++ toString i := by
  obtain ⟨j, eq, from_two, before, -⟩ := firstFree_spec base used used.length 2
  have named : (unique base used).1 = base ++ toString j := by simp [unique, taken, eq]
  have free : base ++ toString j ∉ used := named ▸ unique_fresh base used
  refine ⟨j, ⟨⟨from_two, by simpa using free⟩, ?_⟩, named⟩
  rintro k ⟨later, unused⟩
  by_contra early
  exact unused (List.mem_toFinset.mpr (before k later (by omega)))

theorem toFinset_unique (base : String) (used : List String) :
    (unique base used).2.toFinset = insert (unique base used).1 used.toFinset := by
  rw [unique_used, List.toFinset_cons]

theorem takes_of_free_iff (free : base ∉ names) :
    Takes base names name names' ↔ name = base ∧ names' = insert base names := by
  constructor
  · intro run
    cases run with
    | base => exact ⟨rfl, rfl⟩
    | numbered taken => exact absurd taken free
  · rintro ⟨rfl, rfl⟩
    exact .base free

/-- A used base is put in once more, which changes nothing. -/
theorem takes_of_taken_iff (taken : base ∈ names) :
    Takes base names name names' ↔ Tries base 2 names name names' := by
  have unchanged := Finset.insert_eq_of_mem taken
  constructor
  · intro run
    cases run with
    | base free => exact absurd taken free
    | numbered _ run => rwa [unchanged] at run
  · intro run
    exact .numbered taken (by rwa [unchanged])

theorem takes_iff : Takes base used.toFinset name names' ↔
    name = (unique base used).1 ∧ names' = (unique base used).2.toFinset := by
  rw [toFinset_unique]
  by_cases taken : base ∈ used
  · obtain ⟨i, least, named⟩ := unique_of_taken taken
    rw [takes_of_taken_iff (List.mem_toFinset.mpr taken), tries_iff, named]
    constructor
    · rintro ⟨j, least', rfl, rfl⟩
      obtain rfl := least.unique least'
      exact ⟨rfl, rfl⟩
    · rintro ⟨rfl, rfl⟩
      exact ⟨i, least, rfl, rfl⟩
  · rw [takes_of_free_iff (mt List.mem_toFinset.mp taken), unique_of_free taken]

/-- The search ends for every base and every finite set of used names, in one way only: with the
name that is given out, which is put among the used ones. This name was not used before. It is the
base if that is free, and else the base with the least number from 2 on that makes it free; with
`n` names used that number is `n + 1` at most. -/
theorem name_is_first_free (base : String) (used : List String) :
    (∀ name names, Takes base used.toFinset name names ↔
      name = (unique base used).1 ∧ names = (unique base used).2.toFinset) ∧
    (unique base used).1 ∉ used ∧
    (base ∉ used ∧ (unique base used).1 = base ∨
      base ∈ used ∧ ∃ i, IsLeast (freeFrom base used.toFinset 2) i ∧
        i ≤ used.toFinset.card + 1 ∧ (unique base used).1 = base ++ toString i) ∧
    (unique base used).2.toFinset = insert (unique base used).1 used.toFinset := by
  refine ⟨fun _ _ => takes_iff, unique_fresh base used, ?_, toFinset_unique base used⟩
  by_cases taken : base ∈ used
  · obtain ⟨i, least, named⟩ := unique_of_taken taken
    exact .inr ⟨taken, i, least, le_of_isLeast (List.mem_toFinset.mpr taken) least, named⟩
  · exact .inl ⟨taken, unique_of_free taken⟩

/-- Names that look like numbered bases are in the way, whoever has asked for them. -/
example : unique "Widget" ["Widget3", "Widget", "Widget2", "Widget5"] =
    ("Widget4", ["Widget4", "Widget3", "Widget", "Widget2", "Widget5"]) := by decide +kernel

end WireSchema.Naming
