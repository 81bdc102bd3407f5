import WireSchema.Proofs.Numbers

/-! Numbers that a word of 64 bits can hold. Rounding gives no others, so neither does anything that
makes a number from digits. -/
namespace WireSchema.Binary64

/-- A number in the one form that it has: the significand has 53 bits, unless the exponent is the
least one. -/
inductive IsWord : Binary64 → Prop
  | nan : IsWord .nan
  | infinite {negative : Bool} : IsWord (.infinite negative)
  | finite {negative : Bool} {m : Nat} {e : Int} : m < 2 ^ 53 → minExponent ≤ e →
      e ≤ maxExponent → 2 ^ 52 ≤ m ∨ e = minExponent → IsWord (.finite negative m e)

theorem isWord_zero (negative : Bool) : (zero negative).IsWord :=
  .finite (by decide) le_rfl (by decide) (.inr rfl)

theorem IsWord.withSign {x : Binary64} (word : x.IsWord) (negative : Bool) :
    (x.withSign negative).IsWord := by
  cases word with
  | nan => exact .nan
  | infinite => exact .infinite
  | finite short low high normal => exact .finite short low high normal

theorem roundQuotient_bounds (num den : Nat) :
    num / den ≤ roundQuotient num den ∧ roundQuotient num den ≤ num / den + 1 := by
  unfold roundQuotient
  dsimp only
  split
  · omega
  · split <;> omega

theorem roundQuotient_le {num den b : Nat} (below : num < den * b) :
    roundQuotient num den ≤ b := by
  have less : num / den < b := Nat.div_lt_of_lt_mul below
  exact (roundQuotient_bounds num den).2.trans less

theorem le_roundQuotient {num den b : Nat} (positive : 0 < den) (above : den * b ≤ num) :
    b ≤ roundQuotient num den := by
  have enough : b ≤ num / den := by rwa [Nat.le_div_iff_mul_le positive, mul_comm]
  exact enough.trans (roundQuotient_bounds num den).1

theorem pow2_pos (k : Int) : 0 < pow2 k := Nat.pow_pos two_pos

theorem pow2_eq (k : Int) : (pow2 k : ℚ) = 2 ^ k * pow2 (-k) := by
  unfold pow2
  obtain ⟨j, rfl | rfl⟩ := k.eq_nat_or_neg
  · simp
  · simp

/-- A power of two in a comparison goes to the side where it is a whole number. -/
theorem scaled_lt_iff {n d b : Nat} {k : Int} :
    n * pow2 (-k) < d * pow2 k * b ↔ (n : ℚ) < d * 2 ^ k * b := by
  have positive : (0 : ℚ) < pow2 (-k) := by exact_mod_cast pow2_pos (-k)
  rw [← mul_lt_mul_iff_left₀ positive, ← @Nat.cast_lt ℚ]
  push_cast
  rw [pow2_eq k]
  ring_nf

def lead (n d : Nat) : Int :=
  let lead : Int := (n.log2 : Int) - (d.log2 : Int)
  if n * pow2 (-lead) < d * pow2 lead then lead - 1 else lead

def unitOf (n d : Nat) : Int := max minExponent (lead n d - 52)

def digitsOf (n d : Nat) : Nat := roundQuotient (n * pow2 (-unitOf n d)) (d * pow2 (unitOf n d))

/-- The number `±q·2^e`, where `q` may have become `2^53` by rounding. -/
def carried (negative : Bool) (q : Nat) (e : Int) : Binary64 :=
  let carry := q = Nat.pow 2 53
  let e := if carry then e + 1 else e
  if maxExponent < e then .infinite negative
  else .finite negative (if carry then Nat.pow 2 52 else q) e

theorem round_eq (negative : Bool) (num den : Nat) (scale : Int) :
    round negative num den scale =
      let n := num * pow2 scale
      let d := den * pow2 (-scale)
      if n = 0 then zero negative else carried negative (digitsOf n d) (unitOf n d) := rfl

theorem lead_spec {n d : Nat} (hn : n ≠ 0) (hd : d ≠ 0) :
    (d : ℚ) * 2 ^ lead n d ≤ n ∧ (n : ℚ) < d * 2 ^ (lead n d + 1) := by
  have lowN : (2 ^ (n.log2 : Int) : ℚ) ≤ n := by exact_mod_cast Nat.log2_self_le hn
  have highN : (n : ℚ) < 2 ^ (n.log2 + 1 : Int) := by exact_mod_cast Nat.lt_log2_self
  have lowD : (2 ^ (d.log2 : Int) : ℚ) ≤ d := by exact_mod_cast Nat.log2_self_le hd
  have highD : (d : ℚ) < 2 ^ (d.log2 + 1 : Int) := by exact_mod_cast Nat.lt_log2_self
  have small := @scaled_lt_iff n d 1 ((n.log2 : Int) - d.log2)
  simp only [mul_one, Nat.cast_one] at small
  -- The logarithms leave two places, and the comparison tells which of them it is.
  unfold lead
  dsimp only
  split
  · rename_i less
    refine ⟨?_, by simpa using small.mp less⟩
    calc (d : ℚ) * 2 ^ ((n.log2 : Int) - d.log2 - 1)
        ≤ 2 ^ (d.log2 + 1 : Int) * 2 ^ ((n.log2 : Int) - d.log2 - 1) :=
          mul_le_mul_of_nonneg_right highD.le (zpow_pos two_pos _).le
      _ = 2 ^ (n.log2 : Int) := by
        rw [← zpow_add₀ two_ne_zero]
        congr 1
        ring
      _ ≤ n := lowN
  · rename_i more
    refine ⟨not_lt.mp (mt small.mpr more), ?_⟩
    calc (n : ℚ) < 2 ^ (n.log2 + 1 : Int) := highN
      _ = 2 ^ (d.log2 : Int) * 2 ^ ((n.log2 : Int) - d.log2 + 1) := by
        rw [← zpow_add₀ two_ne_zero]
        congr 1
        ring
      _ ≤ d * 2 ^ ((n.log2 : Int) - d.log2 + 1) :=
        mul_le_mul_of_nonneg_right lowD (zpow_pos two_pos _).le

theorem digitsOf_le {n d : Nat} (hn : n ≠ 0) (hd : d ≠ 0) : digitsOf n d ≤ 2 ^ 53 := by
  refine roundQuotient_le (scaled_lt_iff.mpr ?_)
  have : lead n d + 1 ≤ unitOf n d + 53 := by
    unfold unitOf
    omega
  calc (n : ℚ) < d * 2 ^ (lead n d + 1) := (lead_spec hn hd).2
    _ ≤ d * 2 ^ (unitOf n d + 53) := by gcongr; norm_num
    _ = d * 2 ^ unitOf n d * (2 ^ 53 : Nat) := by
      rw [zpow_add₀ two_ne_zero, mul_assoc]
      norm_num

theorem le_digitsOf {n d : Nat} (hn : n ≠ 0) (hd : d ≠ 0) (normal : unitOf n d = lead n d - 52) :
    2 ^ 52 ≤ digitsOf n d := by
  have positive : 0 < d * pow2 (unitOf n d) := Nat.mul_pos (by omega) (pow2_pos _)
  refine le_roundQuotient positive (not_lt.mp fun less => not_le.mpr (scaled_lt_iff.mp less) ?_)
  calc (d : ℚ) * 2 ^ unitOf n d * (2 ^ 52 : Nat) = d * 2 ^ lead n d := by
        rw [mul_assoc, Nat.cast_pow, ← zpow_natCast, Nat.cast_ofNat, ← zpow_add₀ two_ne_zero,
          normal]
        norm_num
    _ ≤ n := (lead_spec hn hd).1

theorem isWord_carried {q : Nat} {e : Int} (negative : Bool) (short : q ≤ 2 ^ 53)
    (low : minExponent ≤ e) (normal : 2 ^ 52 ≤ q ∨ e = minExponent) :
    (carried negative q e).IsWord := by
  unfold carried
  by_cases carry : q = Nat.pow 2 53
  · simp only [carry, if_true]
    split
    · exact .infinite
    · exact .finite (by decide) (by omega) (by omega) (.inl le_rfl)
  · simp only [carry, if_false]
    split
    · exact .infinite
    · exact .finite (lt_of_le_of_ne short carry) low (by omega) normal

theorem isZero_carried {q : Nat} {negative : Bool} {e : Int} (positive : 0 < q) :
    (carried negative q e).isZero = false := by
  unfold carried
  by_cases carry : q = Nat.pow 2 53
  · simp only [carry, if_true]
    split <;> rfl
  · simp only [carry, if_false]
    split
    · rfl
    · simpa [isZero] using positive.ne'

theorem isWord_round {den : Nat} (negative : Bool) (num : Nat) (scale : Int) (hd : den ≠ 0) :
    (round negative num den scale).IsWord := by
  rw [round_eq]
  dsimp only
  split
  · exact isWord_zero negative
  · rename_i hn
    have hd : den * pow2 (-scale) ≠ 0 := Nat.mul_ne_zero hd (pow2_pos _).ne'
    refine isWord_carried negative (digitsOf_le hn hd) (le_max_left ..) ?_
    -- The first digit is in its place unless the exponent would be too small.
    rcases max_choice minExponent (lead (num * pow2 scale) (den * pow2 (-scale)) - 52) with h | h
    · exact .inr h
    · exact .inl (le_digitsOf hn hd h)

theorem isWord_ofInt (n : Int) : (ofInt n).IsWord := isWord_round _ _ _ one_ne_zero

theorem isWord_product (x y : Binary64) : (product x y).IsWord := by
  unfold product
  split
  · exact isWord_round _ _ _ one_ne_zero
  · exact .infinite
  · exact .infinite
  · exact .nan

theorem isWord_quotient (x : Binary64) {y : Binary64} (divides : y.isZero = false) :
    (quotient x y).IsWord := by
  unfold quotient
  split
  · exact isWord_round _ _ _ (by simpa [isZero] using divides)
  · exact .infinite
  · exact isWord_zero _
  · exact .nan

/-- A fraction from one upwards has all its 53 digits. -/
theorem isZero_round {num den : Nat} {negative : Bool} (hd : den ≠ 0) (large : den ≤ num) :
    (round negative num den 0).isZero = false := by
  have hn : num ≠ 0 := by omega
  obtain ⟨-, above⟩ := lead_spec hn hd
  have ahead : -1 < lead num den := by
    by_contra behind
    have least : (2 : ℚ) ^ (lead num den + 1) ≤ 1 := zpow_le_one_of_nonpos₀ (by norm_num) (by omega)
    have : (den : ℚ) ≤ num := by exact_mod_cast large
    nlinarith
  have unit : unitOf num den = lead num den - 52 := by
    unfold unitOf minExponent
    omega
  have digits := le_digitsOf hn hd unit
  have same : round negative num den 0 = carried negative (digitsOf num den) (unitOf num den) := by
    simp [round_eq, pow2, hn]
  rw [same, isZero_carried (by omega)]

theorem isZero_powerOfTen (k : Nat) : (powerOfTen k).isZero = false :=
  isZero_round one_ne_zero (Nat.pow_pos (by decide))

theorem isWord_ofScaled? {negative : Bool} {digits : Nat} {exponent : Int} {x : Binary64}
    (made : ofScaled? negative digits exponent = some x) : x.IsWord := by
  unfold ofScaled? at made
  dsimp only at made
  split at made
  · split at made
    · exact Option.some.inj made ▸ isWord_zero _
    split at made
    · cases made
    split at made
    · exact Option.some.inj made ▸ (isWord_product ..).withSign _
    · cases made
  · split at made
    · exact Option.some.inj made ▸ (isWord_quotient _ (isZero_powerOfTen _)).withSign _
    split at made
    · exact Option.some.inj made ▸ (isWord_quotient _ (isZero_powerOfTen _)).withSign _
    · exact Option.some.inj made ▸ isWord_zero _

end WireSchema.Binary64
