import WireSchema.Proofs.Words

/-! Multiples of a step among the integers. They are the multiples of the step's numerator, but what
is emitted is the step's integer part. -/
namespace WireSchema

open Binary64

/-- An integer is a whole number of steps. -/
def IsMultiple (step : ℚ) (n : Int) : Prop := ∃ k : Int, (n : ℚ) = k * step

variable {step : ℚ} {n : Int}

theorem isMultiple_iff : IsMultiple step n ↔ step.num ∣ n := by
  constructor
  · rintro ⟨k, same⟩
    have scaled : n * (step.den : Int) = k * step.num := by
      have : (n * step.den : ℚ) = k * step.num := by rw [same, mul_assoc, Rat.mul_den_eq_num]
      exact_mod_cast this
    have coprime : step.num.gcd step.den = 1 := step.reduced
    exact Int.dvd_of_dvd_mul_left_of_gcd_one (scaled ▸ Dvd.intro_left k rfl) coprime
  · rintro ⟨k, rfl⟩
    refine ⟨k * step.den, ?_⟩
    push_cast
    rw [mul_assoc, mul_comm (step.den : ℚ), Rat.mul_den_eq_num, mul_comm]

/-- A step that is no integer is less than its numerator. -/
theorem floor_lt_num (positive : 0 < step) (broken : step.den ≠ 1) : ⌊step⌋ < step.num := by
  have several : (2 : ℚ) ≤ step.den := by
    have := step.den_pos
    exact_mod_cast (by omega : 2 ≤ step.den)
  rw [Int.floor_lt, ← Rat.mul_den_eq_num]
  nlinarith

/-- The multiples among the words stay the same if the step is cut to an integer, exactly if it is
one, and a word itself. -/
theorem multiples_kept_iff (positive : 0 < step)
    (small : step.den ≠ 1 → step.num ≤ int64Max) :
    (∀ n, IsInt64 n → (IsMultiple step n ↔ clampInt64 ⌊step⌋ ∣ n)) ↔
      ∃ k : Int, IsInt64 k ∧ step = k := by
  have := int64Min_eq
  have := int64Max_eq
  have above : 0 < step.num := Rat.num_pos.mpr positive
  have floored : 0 ≤ ⌊step⌋ := Int.floor_nonneg.mpr positive.le
  simp only [isMultiple_iff]
  constructor
  · intro kept
    by_cases whole : step.den = 1
    · have same : step = step.num := ((Rat.den_eq_one_iff step).mp whole).symm
      refine ⟨step.num, ⟨by omega, ?_⟩, same⟩
      by_contra beyond
      -- The last word is a multiple of what is emitted then.
      have cut : clampInt64 ⌊step⌋ = int64Max := by
        rw [same, Int.floor_intCast]
        unfold clampInt64
        omega
      have divides := (kept int64Max ⟨by omega, by omega⟩).mpr (by rw [cut])
      exact beyond (Int.le_of_dvd (by omega) divides)
    · have less := floor_lt_num positive whole
      have fits := small whole
      have cut : clampInt64 ⌊step⌋ = ⌊step⌋ := by
        unfold clampInt64
        omega
      rw [cut] at kept
      -- What is emitted is its own multiple, and so is the numerator.
      have divides := (kept ⌊step⌋ ⟨by omega, by omega⟩).mpr dvd_rfl
      have vanished : ⌊step⌋ = 0 := Int.eq_zero_of_dvd_of_nonneg_of_lt floored less divides
      have vanishes := (kept step.num ⟨by omega, by omega⟩).mp dvd_rfl
      rw [vanished, zero_dvd_iff] at vanishes
      omega
  · rintro ⟨k, ⟨low, high⟩, rfl⟩ n -
    have cut : clampInt64 ⌊(k : ℚ)⌋ = k := by
      rw [Int.floor_intCast]
      unfold clampInt64
      omega
    rw [cut, Rat.num_intCast]

/-- Only the numerators of integers can be more than words. -/
theorem Binary64.IsWord.num_le {x : Binary64} (word : x.IsWord) (positive : 0 < x.toRat)
    (broken : x.toRat.den ≠ 1) : x.toRat.num ≤ int64Max := by
  cases word with
  | nan => cases positive
  | infinite => cases positive
  | @finite negative m e short low high normal =>
    have above : 0 < signed negative m := signed_pos positive
    have most : signed negative m ≤ m := by
      unfold signed
      split <;> omega
    by_cases whole : 0 ≤ e
    · obtain ⟨k, rfl⟩ := Int.eq_ofNat_of_zero_le whole
      have integer : (Binary64.finite negative m k).toRat = (signed negative m * 2 ^ k : Int) := by
        simp [toRat]
      exact absurd (by rw [integer, Rat.den_intCast]) broken
    · obtain ⟨k, rfl⟩ : ∃ k : Nat, e = -(k : Int) := ⟨e.natAbs, by omega⟩
      have quotient : (Binary64.finite negative m (-k)).toRat =
          Rat.divInt (signed negative m) (2 ^ k : Nat) := by
        rw [toRat, ← Rat.intCast_div_eq_divInt, zpow_neg, div_eq_mul_inv]
        simp
      have divides : (Binary64.finite negative m (-k)).toRat.num ∣ signed negative m :=
        quotient ▸ Rat.num_dvd _ (by positivity)
      have := Int.le_of_dvd above divides
      have := int64Max_eq
      omega

namespace SchemaKind

variable (type : IntegerType) (values : Option (List Json)) (layers : List Constraints)
  (collection : Option CollectionFormat)

/-- An integer gets the integer part of the first step between multiples that a layer sets, as a
word. That has the same multiples exactly if it is the step itself. It is zero for every step below
one. -/
theorem multiples_are_kept_iff {step : Binary64}
    (first : layers.findSome? (·.multipleOf) = some step) (word : step.IsWord)
    (positive : 0 < step.toRat) :
    ∃ format emitted, (integer type none values).harvest layers collection =
        integer type format values ∧
      format.bind (·.multipleOf) = some emitted ∧
      ((∀ n, IsInt64 n → (IsMultiple step.toRat n ↔ emitted ∣ n)) ↔
        ∃ k : Int, IsInt64 k ∧ step.toRat = k) ∧
      emitted = clampInt64 ⌊step.toRat⌋ ∧ (emitted = 0 ↔ step.toRat < 1) := by
  obtain ⟨format, harvested, -, -, multipleOf⟩ := harvest_integer type values layers collection
  refine ⟨format, _, harvested, by rw [multipleOf, first]; rfl, ?_⟩
  rw [truncInt64_eq positive]
  refine ⟨multiples_kept_iff positive (word.num_le positive), rfl, ?_⟩
  have floored : 0 ≤ ⌊step.toRat⌋ := Int.floor_nonneg.mpr positive.le
  have below : step.toRat < 1 ↔ ⌊step.toRat⌋ < 1 := by simp [Int.floor_lt]
  have := int64Min_eq
  have := int64Max_eq
  rw [below]
  unfold clampInt64
  omega

def dozens : List Constraints := [
  { secret := true },
  { multipleOf := some (.ofInt 3) },
  { multipleOf := some (.ofDecimal false 25 (-1)) }]

theorem dozens_kept : ∃ format, (integer .integer32 none none).harvest dozens none =
      integer .integer32 format none ∧
    format.bind (·.multipleOf) = some 3 ∧ ∀ n, IsInt64 n → (IsMultiple 3 n ↔ 3 ∣ n) := by
  have three : (Binary64.ofInt 3).toRat = 3 := by
    have read : Binary64.ofInt 3 = .finite false (3 * 2 ^ 51) (-51) := by decide +kernel
    norm_num [read, toRat, signed]
  obtain ⟨format, emitted, harvested, multipleOf, kept, cut, -⟩ :=
    multiples_are_kept_iff .integer32 none dozens none rfl (isWord_ofInt 3)
      (by rw [three]; norm_num)
  have same : emitted = 3 := by
    rw [cut, three]
    rfl
  rw [three, same] at kept
  exact ⟨format, harvested, same ▸ multipleOf, kept.mpr ⟨3, ⟨by decide, by decide⟩, by norm_num⟩⟩

/-- Five is two steps of two and a half, but no multiple of what is emitted for them. -/
theorem five_no_multiple : ∃ step emitted, Binary64.ofScaled? false 25 (-1) = some step ∧
    (integer .integer32 none none).harvest [{ multipleOf := some step }] none =
      integer .integer32 (some { multipleOf := some emitted }) none ∧
    step.IsWord ∧ step.toRat = 5 / 2 ∧ IsMultiple step.toRat 5 ∧ ¬ emitted ∣ 5 := by
  have read : Binary64.ofScaled? false 25 (-1) = some (.finite false (5 * 2 ^ 50) (-51)) := by
    decide +kernel
  have value : (Binary64.finite false (5 * 2 ^ 50) (-51)).toRat = 5 / 2 := by
    norm_num [toRat, signed]
  refine ⟨_, 2, read, rfl, isWord_ofScaled? read, value, ?_, by decide⟩
  rw [value]
  exact ⟨2, by norm_num⟩

end SchemaKind
end WireSchema
