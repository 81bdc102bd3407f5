/-! Binary floating-point numbers with 53 significant bits. A finite number is kept as the exact
fraction that it stands for, so every operation here is integer arithmetic followed by at most one
rounding to the nearest number, ties to the even significand. -/
namespace WireSchema

/-- `finite negative m e` is `±m·2^e`. The functions of this module keep `m < 2^53` and
`-1074 ≤ e ≤ 971`, with `2^52 ≤ m` unless `e = -1074`, so that a number has one form per sign. -/
inductive Binary64 where
  | nan
  | infinite (negative : Bool)
  | finite (negative : Bool) (significand : Nat) (exponent : Int)
  deriving DecidableEq, Repr

namespace Binary64

def minExponent : Int := -1074
def maxExponent : Int := 971

def zero (negative : Bool) : Binary64 := .finite negative 0 minExponent

/-- The integer nearest to `num / den`, and the even one of two that are equally near. -/
def roundQuotient (num den : Nat) : Nat :=
  let q := num / den
  let r := num % den
  if 2 * r < den then q else if den < 2 * r then q + 1 else q + q % 2

/-- `2^k` where `k` is not negative, and 1 elsewhere. -/
def pow2 (k : Int) : Nat := Nat.pow 2 k.toNat

/-- The number nearest to `±(num / den)·2^scale`; infinite beyond the largest finite number. -/
def round (negative : Bool) (num den : Nat) (scale : Int) : Binary64 :=
  let n := num * pow2 scale
  let d := den * pow2 (-scale)
  if n = 0 then zero negative else
  let lead : Int := (n.log2 : Int) - (d.log2 : Int)
  let small := n * pow2 (-lead) < d * pow2 lead
  let e := max minExponent ((if small then lead - 1 else lead) - 52)
  let q := roundQuotient (n * pow2 (-e)) (d * pow2 e)
  let carry := q = Nat.pow 2 53
  let m := if carry then Nat.pow 2 52 else q
  let e := if carry then e + 1 else e
  if maxExponent < e then .infinite negative else .finite negative m e

def ofNat (n : Nat) : Binary64 := round false n 1 0

def ofInt (n : Int) : Binary64 := round (n < 0) n.natAbs 1 0

def powerOfTen (k : Nat) : Binary64 := round false (Nat.pow 10 k) 1 0

def isFinite : Binary64 → Bool
  | .finite .. => true
  | _ => false

def isZero : Binary64 → Bool
  | .finite _ m _ => m == 0
  | _ => false

def withSign (negative : Bool) : Binary64 → Binary64
  | .nan => .nan
  | .infinite _ => .infinite negative
  | .finite _ m e => .finite negative m e

def product : Binary64 → Binary64 → Binary64
  | .finite _ m e, .finite _ m' e' => round false (m * m') 1 (e + e')
  | .infinite _, _ => .infinite false
  | _, .infinite _ => .infinite false
  | _, _ => .nan

def quotient : Binary64 → Binary64 → Binary64
  | .finite _ m e, .finite _ m' e' => round false m m' (e - e')
  | .infinite _, _ => .infinite false
  | _, .infinite _ => zero false
  | _, _ => .nan

/-- The number nearest to `±digits·10^exponent`. The two guards only keep the powers of ten small:
beyond them the answer is infinite or zero whatever the digits are. -/
def ofDecimal (negative : Bool) (digits : Nat) (exponent : Int) : Binary64 :=
  if digits = 0 then zero negative
  else if 400 < exponent then .infinite negative
  else if exponent < -(400 + (digits.log2 : Int)) then zero negative
  else if 0 ≤ exponent then round negative (digits * Nat.pow 10 exponent.toNat) 1 0
  else round negative digits (Nat.pow 10 (-exponent).toNat) 0

/-- `±digits·10^exponent` computed in two rounded steps: the digits become a number, which is then
multiplied or divided by the number nearest to a power of ten, in portions of at most `10^308`. The
result may differ from `ofDecimal` in its last bit. `none` stands for a magnitude that is not
finite. -/
def ofScaled? (negative : Bool) (digits : Nat) (exponent : Int) : Option Binary64 :=
  let x := ofNat digits
  if 0 ≤ exponent then
    if digits = 0 then some (zero negative)
    else if 308 < exponent then none
    else
      let y := product x (powerOfTen exponent.toNat)
      if y.isFinite then some (y.withSign negative) else none
  else
    let k := (-exponent).toNat
    if k ≤ 308 then some ((quotient x (powerOfTen k)).withSign negative)
    else if k ≤ 616 then
      some ((quotient (quotient x (powerOfTen 308)) (powerOfTen (k - 308))).withSign negative)
    else some (zero negative)

/-- Equality of the numbers: both zeros are equal, and a NaN equals nothing. -/
def same : Binary64 → Binary64 → Bool
  | .nan, _ => false
  | _, .nan => false
  | .infinite n, .infinite n' => n == n'
  | .finite n m e, .finite n' m' e' => (m == 0 && m' == 0) || (n == n' && m == m' && e == e')
  | _, _ => false

def int64Min : Int := -(Nat.pow 2 63 : Nat)
def int64Max : Int := (Nat.pow 2 63 - 1 : Nat)

def clampInt64 (n : Int) : Int := max int64Min (min n int64Max)

def floorScaled (n e : Int) : Int :=
  if 0 ≤ e then n * pow2 e else n / pow2 (-e)

def signed (negative : Bool) (m : Nat) : Int := if negative then -(m : Int) else m

/-- Conversion to a signed 64-bit word by a rounding rule for `n·2^e`: clamped, and 0 for a NaN. -/
def toInt64 (rule : Int → Int → Int) : Binary64 → Int
  | .nan => 0
  | .infinite negative => if negative then int64Min else int64Max
  | .finite negative m e => clampInt64 (rule (signed negative m) e)

def floorInt64 : Binary64 → Int := toInt64 floorScaled

def ceilInt64 : Binary64 → Int := toInt64 fun n e => -floorScaled (-n) e

def truncInt64 : Binary64 → Int :=
  toInt64 fun n e => if n < 0 then -floorScaled (-n) e else floorScaled n e

end Binary64
end WireSchema
