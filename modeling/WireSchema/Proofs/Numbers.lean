import Mathlib.Data.Rat.Floor
import WireSchema.Proofs.Harvesting

/-! The integers that stand for numbers. A number is rounded exactly and only then brought into the
range of signed 64-bit words; what the step behind an exclusive bound and the truncation of a step
between multiples make of that. -/
namespace WireSchema

namespace Binary64

def toRat : Binary64 → ℚ
  | .finite negative m e => signed negative m * 2 ^ e
  | _ => 0

theorem floorScaled_eq (n e : Int) : floorScaled n e = ⌊(n * 2 ^ e : ℚ)⌋ := by
  unfold floorScaled pow2
  split
  · rename_i whole
    obtain ⟨k, rfl⟩ := Int.eq_ofNat_of_zero_le whole
    have integer : (n * 2 ^ (k : Int) : ℚ) = (n * 2 ^ k : Int) := by push_cast; simp
    rw [integer, Int.floor_intCast]
    simp
  · rename_i small
    obtain ⟨k, rfl⟩ : ∃ k : Nat, e = -(k : Int) := ⟨e.natAbs, by omega⟩
    have quotient : (n * 2 ^ (-(k : Int)) : ℚ) = n / ((2 ^ k : Nat) : ℚ) := by
      rw [zpow_neg, div_eq_mul_inv]; simp
    rw [quotient, Rat.floor_intCast_div_natCast]
    simp

theorem floorInt64_eq {x : Binary64} (finite : x.isFinite) :
    x.floorInt64 = clampInt64 ⌊x.toRat⌋ := by
  cases x with
  | finite negative m e => simp [floorInt64, toInt64, toRat, floorScaled_eq]
  | _ => cases finite

theorem ceilInt64_eq {x : Binary64} (finite : x.isFinite) :
    x.ceilInt64 = clampInt64 ⌈x.toRat⌉ := by
  cases x with
  | finite negative m e => simp [ceilInt64, toInt64, toRat, floorScaled_eq, Int.floor_neg]
  | _ => cases finite

theorem signed_pos {negative : Bool} {m : Nat} {e : Int}
    (positive : 0 < (finite negative m e).toRat) : 0 < signed negative m := by
  have above : (0 : ℚ) < signed negative m := pos_of_mul_pos_left positive (zpow_pos two_pos e).le
  exact_mod_cast above

/-- Truncation is rounding down where a number is positive. -/
theorem truncInt64_eq {x : Binary64} (positive : 0 < x.toRat) :
    x.truncInt64 = clampInt64 ⌊x.toRat⌋ := by
  cases x with
  | finite negative m e =>
    have above := signed_pos positive
    simp [truncInt64, toInt64, toRat, floorScaled_eq, Int.not_lt.mpr above.le]
  | _ => simp [toRat] at positive

def IsInt64 (n : Int) : Prop := int64Min ≤ n ∧ n ≤ int64Max

theorem int64Min_eq : int64Min = -9223372036854775808 := rfl
theorem int64Max_eq : int64Max = 9223372036854775807 := rfl

end Binary64

open Binary64

/-- An integer is no more than an upper bound allows. -/
def IsBelow (bound : ℚ) (exclusive : Bool) (n : Int) : Prop :=
  if exclusive then n < bound else n ≤ bound

def IsAbove (bound : ℚ) (exclusive : Bool) (n : Int) : Prop :=
  if exclusive then bound < n else bound ≤ n

def lastBelow (bound : ℚ) (exclusive : Bool) : Int :=
  if exclusive then ⌈bound⌉ - 1 else ⌊bound⌋

def firstAbove (bound : ℚ) (exclusive : Bool) : Int :=
  if exclusive then ⌊bound⌋ + 1 else ⌈bound⌉

theorem isBelow_iff {bound : ℚ} {exclusive : Bool} {n : Int} :
    IsBelow bound exclusive n ↔ n ≤ lastBelow bound exclusive := by
  cases exclusive with
  | false => simp [IsBelow, lastBelow, Int.le_floor]
  | true =>
    simp only [IsBelow, lastBelow, if_true]
    rw [← Int.lt_ceil, Int.le_sub_one_iff]

theorem isAbove_iff {bound : ℚ} {exclusive : Bool} {n : Int} :
    IsAbove bound exclusive n ↔ firstAbove bound exclusive ≤ n := by
  cases exclusive with
  | false => simp [IsAbove, firstAbove, Int.ceil_le]
  | true =>
    simp only [IsAbove, firstAbove, if_true]
    rw [← Int.floor_lt, Int.add_one_le_iff]

/-- What an emitted maximum says of the upper bound that it stands for. It is the last word below
it, unless the bound is exclusive and beyond all words: then the last word is left out. -/
structure Caps (bound : ℚ) (exclusive : Bool) (max : Int) : Prop where
  exact_iff : max = clampInt64 (lastBelow bound exclusive) ↔
    ¬ (exclusive ∧ (int64Max : ℚ) < bound)
  agrees_iff : (∃ n, IsInt64 n ∧ IsBelow bound exclusive n) →
    ((∀ n, IsInt64 n → (n ≤ max ↔ IsBelow bound exclusive n)) ↔
      ¬ (exclusive ∧ (int64Max : ℚ) < bound))
  beyond : exclusive → (int64Max : ℚ) < bound → max = int64Max - 1

/-- What an emitted minimum says of the lower bound that it stands for. -/
structure Floors (bound : ℚ) (exclusive : Bool) (min : Int) : Prop where
  exact_iff : min = clampInt64 (firstAbove bound exclusive) ↔
    ¬ (exclusive ∧ bound < int64Min)
  agrees_iff : (∃ n, IsInt64 n ∧ IsAbove bound exclusive n) →
    ((∀ n, IsInt64 n → (min ≤ n ↔ IsAbove bound exclusive n)) ↔
      ¬ (exclusive ∧ bound < int64Min))
  beyond : exclusive → bound < int64Min → min = int64Min + 1

theorem caps_inclusive (bound : ℚ) : Caps bound false (clampInt64 ⌊bound⌋) := by
  refine ⟨by simp [lastBelow], ?_, by simp⟩
  rintro ⟨n, word, below⟩
  refine iff_of_true (fun m word' => ?_) (by simp)
  rw [isBelow_iff] at below ⊢
  unfold IsInt64 at word word'
  unfold clampInt64
  simp only [lastBelow, Bool.false_eq_true, if_false] at below ⊢
  omega

theorem caps_exclusive (bound : ℚ) : Caps bound true (clampInt64 (clampInt64 ⌈bound⌉ - 1)) := by
  have beyond : (int64Max : ℚ) < bound ↔ int64Max < ⌈bound⌉ := Int.lt_ceil.symm
  have := int64Min_eq
  have := int64Max_eq
  simp only [clampInt64]
  refine ⟨?_, ?_, ?_⟩
  · simp only [lastBelow, if_true, beyond, true_and, clampInt64]
    omega
  · rintro ⟨n, word, below⟩
    simp only [isBelow_iff, lastBelow, if_true, beyond, true_and, IsInt64] at *
    constructor
    · intro agrees far
      have := agrees int64Max (by omega)
      omega
    · intro near m word'
      omega
  · simp only [beyond]
    omega

theorem floors_inclusive (bound : ℚ) : Floors bound false (clampInt64 ⌈bound⌉) := by
  refine ⟨by simp [firstAbove], ?_, by simp⟩
  rintro ⟨n, word, above⟩
  refine iff_of_true (fun m word' => ?_) (by simp)
  rw [isAbove_iff] at above ⊢
  unfold IsInt64 at word word'
  unfold clampInt64
  simp only [firstAbove, Bool.false_eq_true, if_false] at above ⊢
  omega

theorem floors_exclusive (bound : ℚ) : Floors bound true (clampInt64 (clampInt64 ⌊bound⌋ + 1)) := by
  have beyond : bound < (int64Min : ℚ) ↔ ⌊bound⌋ < int64Min := Int.floor_lt.symm
  have := int64Min_eq
  have := int64Max_eq
  simp only [clampInt64]
  refine ⟨?_, ?_, ?_⟩
  · simp only [firstAbove, if_true, beyond, true_and, clampInt64]
    omega
  · rintro ⟨n, word, above⟩
    simp only [isAbove_iff, firstAbove, if_true, beyond, true_and, IsInt64] at *
    constructor
    · intro agrees far
      have := agrees int64Min (by omega)
      omega
    · intro near m word'
      omega
  · simp only [beyond]
    omega

namespace Constraints

def hasUpper (c : Constraints) : Bool := c.maxValue.isSome || c.maxValueExclusive.isSome
def hasLower (c : Constraints) : Bool := c.minValue.isSome || c.minValueExclusive.isSome

end Constraints

theorem findSome?_of_find? {α β : Type} {p : α → Bool} {f : α → Option β} {l : List α} {a : α}
    (same : ∀ a, p a = (f a).isSome) (found : l.find? p = some a) : l.findSome? f = f a := by
  obtain ⟨here, before, after, rfl, nothing⟩ := List.find?_eq_some_iff_append.mp found
  have silent : before.findSome? f = none :=
    List.findSome?_eq_none_iff.mpr fun b member => by simpa [same] using nothing b member
  obtain ⟨b, said⟩ := Option.isSome_iff_exists.mp (same a ▸ here)
  simp [List.findSome?_append, silent, said]

namespace IntegerFormat

variable {c : Constraints} {bound : Binary64} {exclusive : Bool}

theorem caps_upper (sets : SetsBound c.maxValue c.maxValueExclusive bound exclusive)
    (finite : bound.isFinite) : ∃ max, upper c = some max ∧ Caps bound.toRat exclusive max := by
  rcases sets with set | ⟨unset, set⟩
  · exact ⟨_, by simp [upper, set, floorInt64_eq finite], caps_inclusive _⟩
  · exact ⟨_, by simp [upper, unset, set, ceilInt64_eq finite], caps_exclusive _⟩

theorem floors_lower (sets : SetsBound c.minValue c.minValueExclusive bound exclusive)
    (finite : bound.isFinite) : ∃ min, lower c = some min ∧ Floors bound.toRat exclusive min := by
  rcases sets with set | ⟨unset, set⟩
  · exact ⟨_, by simp [lower, set, ceilInt64_eq finite], floors_inclusive _⟩
  · exact ⟨_, by simp [lower, unset, set, floorInt64_eq finite], floors_exclusive _⟩

theorem upper_of_find? {layers : List Constraints} (first : layers.find? (·.hasUpper) = some c) :
    layers.findSome? upper = upper c :=
  findSome?_of_find? (fun d => by
    cases h : d.maxValue <;> simp [Constraints.hasUpper, upper, h]) first

theorem lower_of_find? {layers : List Constraints} (first : layers.find? (·.hasLower) = some c) :
    layers.findSome? lower = lower c :=
  findSome?_of_find? (fun d => by
    cases h : d.minValue <;> simp [Constraints.hasLower, lower, h]) first

end IntegerFormat

namespace SchemaKind

variable (type : IntegerType) (values : Option (List Json)) (layers : List Constraints)
  (collection : Option CollectionFormat)

theorem harvest_integer : ∃ format, (integer type none values).harvest layers collection =
      integer type format values ∧
    format.bind (·.maximum) = layers.findSome? IntegerFormat.upper ∧
    format.bind (·.minimum) = layers.findSome? IntegerFormat.lower ∧
    format.bind (·.multipleOf) = (layers.findSome? (·.multipleOf)).map Binary64.truncInt64 := by
  refine ⟨_, rfl, ?_⟩
  simp [bind_nonEmptyFormat, IntegerFormat.foldl_merge]

/-- The maximum of an integer stands for the bound of the first layer that has an upper one, and its
minimum likewise. -/
theorem bounds_are_exact_iff : ∃ format, (integer type none values).harvest layers collection =
      integer type format values ∧
    (∀ c bound exclusive, layers.find? (·.hasUpper) = some c →
      SetsBound c.maxValue c.maxValueExclusive bound exclusive → bound.isFinite →
      ∃ max, format.bind (·.maximum) = some max ∧ Caps bound.toRat exclusive max) ∧
    ∀ c bound exclusive, layers.find? (·.hasLower) = some c →
      SetsBound c.minValue c.minValueExclusive bound exclusive → bound.isFinite →
      ∃ min, format.bind (·.minimum) = some min ∧ Floors bound.toRat exclusive min := by
  obtain ⟨format, harvested, maximum, minimum, -⟩ :=
    harvest_integer type values layers collection
  refine ⟨format, harvested, fun c bound exclusive first sets finite => ?_,
    fun c bound exclusive first sets finite => ?_⟩
  · rw [maximum, IntegerFormat.upper_of_find? first]
    exact IntegerFormat.caps_upper sets finite
  · rw [minimum, IntegerFormat.lower_of_find? first]
    exact IntegerFormat.floors_lower sets finite

def speedLimits : List Constraints := [
  { maxLength := some 4 },
  { maxValueExclusive := some (.finite false (201 * 2 ^ 45) (-46))
    minValue := some (.finite true (5 * 2 ^ 50) (-51)) },
  { maxValue := some (.ofNat 5), minValueExclusive := some (.ofNat 2) }]

theorem speed_bounded : ∃ format, (integer .integer32 none none).harvest speedLimits none =
      integer .integer32 format none ∧
    format.bind (·.maximum) = some 100 ∧ format.bind (·.minimum) = some (-2) := by
  obtain ⟨format, harvested, uppers, lowers⟩ :=
    bounds_are_exact_iff .integer32 none speedLimits none
  obtain ⟨max, maximum, caps⟩ := uppers _ _ _ rfl (.exclusive rfl rfl) rfl
  obtain ⟨min, minimum, floors⟩ := lowers _ _ _ rfl (.inclusive rfl) rfl
  have above : (Binary64.finite false (201 * 2 ^ 45) (-46)).toRat = 201 / 2 := by
    norm_num [toRat, signed]
  have below : (Binary64.finite true (5 * 2 ^ 50) (-51)).toRat = -5 / 2 := by
    norm_num [toRat, signed]
  rw [above] at caps
  rw [below] at floors
  refine ⟨format, harvested, ?_, ?_⟩
  · rw [maximum, caps.exact_iff.mpr (by norm_num [int64Max_eq])]
    have last : lastBelow (201 / 2) true = 100 := by norm_num [lastBelow]
    rw [last]
    rfl
  · rw [minimum, floors.exact_iff.mpr (by simp)]
    have first : firstAbove (-5 / 2) false = -2 := by norm_num [firstAbove]
    rw [first]
    rfl

/-- The number `2^63`, which no word can hold. -/
def beyondWords : Binary64 := .finite false (2 ^ 52) 11

/-- The last word is below the bound, and yet above the maximum that is emitted for it. -/
theorem last_word_left_out : ∃ max,
    (integer .integer64 none none).harvest [{ maxValueExclusive := some beyondWords }] none =
      integer .integer64 (some { maximum := some max }) none ∧
    max ≠ clampInt64 (lastBelow beyondWords.toRat true) ∧
    IsInt64 int64Max ∧ IsBelow beyondWords.toRat true int64Max ∧ ¬ int64Max ≤ max := by
  have value : beyondWords.toRat = 9223372036854775808 := by norm_num [beyondWords, toRat, signed]
  refine ⟨int64Max - 1, rfl, ?_, ?_, ?_, by decide⟩
  · have last : lastBelow beyondWords.toRat true = int64Max := by
      norm_num [value, lastBelow, int64Max_eq]
    rw [last]
    decide
  · exact ⟨by decide, by decide⟩
  · rw [value]
    norm_num [IsBelow, int64Max_eq]

end SchemaKind
end WireSchema
