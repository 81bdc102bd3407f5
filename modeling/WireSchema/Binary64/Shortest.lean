import WireSchema.Binary64

/-! The decimal text of a number: the fewest digits that read back as the number, and of those the
ones nearest to it. Positional notation is used from `1e-5` up to, but excluding, `1e16`. -/
namespace WireSchema.Binary64

/-- The decimal number `digits·10^exponent`. -/
structure Decimal where
  digits : Nat
  exponent : Int
  deriving DecidableEq, Repr

/-- The reals that round to `m·2^e`, as fractions with denominator `unit`; the ends belong to the
interval exactly if `closed`. -/
structure Interval where
  low : Nat
  value : Nat
  high : Nat
  unit : Nat
  closed : Bool

/-- Half the gap on either side of the number; below a power of two the gap is half as wide. -/
def interval (m : Nat) (e : Int) : Interval :=
  let scale := pow2 (e - 2)
  let narrow := m = Nat.pow 2 52 ∧ minExponent < e
  { low := (if narrow then 4 * m - 1 else 4 * m - 2) * scale
    value := 4 * m * scale
    high := (4 * m + 2) * scale
    unit := pow2 (2 - e)
    closed := m % 2 == 0 }

namespace Interval

def contains (i : Interval) (x : Nat) : Bool :=
  if i.closed then i.low ≤ x && x ≤ i.high else i.low < x && x < i.high

def rescale (i : Interval) (k : Int) : Interval :=
  let up := Nat.pow 10 (-k).toNat
  { i with low := i.low * up, value := i.value * up, high := i.high * up,
           unit := i.unit * Nat.pow 10 k.toNat }

/-- The multiple of `10^k` in the interval that is nearest to its value, if there is one. It is one
of the two neighbours of the value. -/
def nearest? (i : Interval) (k : Int) : Option Decimal :=
  let j := i.rescale k
  let c := j.value / j.unit
  let below := j.contains (c * j.unit)
  let above := j.contains ((c + 1) * j.unit)
  let r := j.value % j.unit
  let preferBelow := 2 * r < j.unit || (2 * r == j.unit && c % 2 == 0)
  if below && (preferBelow || !above) then some ⟨c, k⟩
  else if above then some ⟨c + 1, k⟩
  else none

def coarsest (i : Interval) : Nat → Int → Decimal
  | 0, k => ⟨(i.rescale k).value / (i.rescale k).unit, k⟩
  | steps + 1, k => (i.nearest? k).getD (coarsest i steps (k - 1))

end Interval

/-- The shortest decimal that rounds to `m·2^e`. The first grid is coarser than the number, and
seventeen significant digits always suffice. -/
def shortest (m : Nat) (e : Int) : Decimal :=
  let i := interval m e
  let lead : Int := (i.value.log2 : Int) - (i.unit.log2 : Int)
  i.coarsest 24 ((lead + 1) * 30103 / 100000 + 1)

def zeros (n : Nat) : List Char := List.replicate n '0'

/-- `point` is the number of digits before the decimal point. -/
def positional (digits : List Char) (point : Int) : List Char :=
  if point ≤ 0 then '0' :: '.' :: zeros (-point).toNat ++ digits
  else if (digits.length : Int) ≤ point then
    digits ++ zeros (point.toNat - digits.length) ++ ['.', '0']
  else digits.take point.toNat ++ '.' :: digits.drop point.toNat

def scientific (digits : List Char) (point : Int) : List Char :=
  let power := point - 1
  digits.take 1 ++ (if digits.length ≤ 1 then [] else '.' :: digits.drop 1) ++
    'e' :: (if power < 0 then '-' else '+') :: Nat.toDigits 10 power.natAbs

def Decimal.text (x : Decimal) : List Char :=
  let digits := Nat.toDigits 10 x.digits
  let point := (digits.length : Int) + x.exponent
  if -5 < point ∧ point ≤ 16 then positional digits point else scientific digits point

def text? : Binary64 → Option String
  | .nan => none
  | .infinite _ => none
  | .finite negative m e =>
    let magnitude := if m = 0 then ['0', '.', '0'] else (shortest m e).text
    some (String.ofList (if negative then '-' :: magnitude else magnitude))

end WireSchema.Binary64
