import WireSchema.Binary64

/-! The meaning of a plain scalar, one that is written without quotes and without a tag: null, a
Boolean, an integer, a float, or, if it is none of these, text. -/
namespace WireSchema.Plain

inductive Meaning where
  | null
  | bool (value : Bool)
  | integer (value : Int)
  /-- An integer of more than 64 but at most 128 bits, which nothing accepts. -/
  | oversized
  | float (value : Binary64)
  | text
  deriving DecidableEq, Repr

def isNullWord (s : String) : Bool := s == "null" || s == "Null" || s == "NULL" || s == "~"

def isNull (s : String) : Bool := s.isEmpty || isNullWord s

def bool? (s : String) : Option Bool :=
  if s == "true" || s == "True" || s == "TRUE" then some true
  else if s == "false" || s == "False" || s == "FALSE" then some false
  else none

def digit? (radix : Nat) (c : Char) : Option Nat :=
  let n :=
    if c.isDigit then c.toNat - '0'.toNat
    else if 'a' ≤ c ∧ c ≤ 'z' then c.toNat - 'a'.toNat + 10
    else if 'A' ≤ c ∧ c ≤ 'Z' then c.toNat - 'A'.toNat + 10
    else radix
  if n < radix then some n else none

def number? (radix : Nat) : List Char → Option Nat
  | [] => none
  | cs => cs.foldlM (fun n c => (digit? radix c).map (n * radix + ·)) 0

/-- Digits after a leading zero: text, although it looks like a number. -/
def isZeroPadded (s : List Char) : Bool :=
  let digits := match s with
    | '-' :: r => r
    | '+' :: r => r
    | r => r
  1 < digits.length && digits.headD ' ' == '0' && digits.all Char.isDigit

/-- An integer of any size: decimal, or with `0x`, `0o` or `0b` in front of its digits. -/
def magnitude? : List Char → Option Nat
  | '0' :: 'x' :: r => number? 16 r
  | '0' :: 'o' :: r => number? 8 r
  | '0' :: 'b' :: r => number? 2 r
  | r => number? 10 r

def integer? (s : List Char) : Option Int :=
  if isZeroPadded s then none else
  match s with
  | '-' :: r => (magnitude? r).map fun n => -(n : Int)
  | '+' :: r => (magnitude? r).map Int.ofNat
  | r => (magnitude? r).map Int.ofNat

def sign : List Char → Bool × List Char
  | '-' :: r => (true, r)
  | '+' :: r => (false, r)
  | r => (false, r)

def exponent? : List Char → Option Int
  | [] => some 0
  | e :: r =>
    if e = 'e' ∨ e = 'E' then
      let (negative, digits) := sign r
      (number? 10 digits).map fun n => if negative then -(n : Int) else n
    else none

/-- A decimal float without its sign: digits with at most one point, at least one digit. -/
def decimal? (negative : Bool) (s : List Char) : Option Binary64 :=
  let whole := s.takeWhile Char.isDigit
  let rest := s.dropWhile Char.isDigit
  let (fraction, rest) := match rest with
    | '.' :: r => (r.takeWhile Char.isDigit, r.dropWhile Char.isDigit)
    | r => ([], r)
  match number? 10 (whole ++ fraction), exponent? rest with
  | some digits, some e => some (.ofDecimal negative digits (e - fraction.length))
  | _, _ => none

/-- A finite decimal number, or one of the words for infinity and not-a-number. -/
def float? (s : String) : Option Binary64 :=
  match s with
  | ".inf" | ".Inf" | ".INF" | "+.inf" | "+.Inf" | "+.INF" => some (.infinite false)
  | "-.inf" | "-.Inf" | "-.INF" => some (.infinite true)
  | ".nan" | ".NaN" | ".NAN" => some .nan
  | _ =>
    let (negative, r) := sign s.toList
    (decimal? negative r).filter Binary64.isFinite

/-- Integers are kept if they fit a signed or an unsigned 64-bit word; beyond 128 bits the digits
are read as a float. -/
def integerMeaning? (s : List Char) : Option Meaning :=
  match integer? s with
  | none => none
  | some n =>
    if -(Nat.pow 2 63 : Nat) ≤ n ∧ n < Nat.pow 2 64 then some (.integer n)
    else if -(Nat.pow 2 127 : Nat) ≤ n ∧ n < Nat.pow 2 128 then some .oversized
    else none

def meaning (s : String) : Meaning :=
  if isNull s then .null else
  match bool? s with
  | some b => .bool b
  | none =>
    match integerMeaning? s.toList with
    | some m => m
    | none =>
      if isZeroPadded s.toList then .text
      else match float? s with
        | some x => .float x
        | none => .text

end WireSchema.Plain
