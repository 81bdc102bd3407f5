import WireSchema.Document

/-! Reading JSON text into a document. Grammar errors make the whole text unreadable. What is
grammatical but has no value, such as a number beyond the range of floats, is an unusable node, so
that it does no harm in a field that nobody reads. -/
namespace WireSchema.Json.Reader

def skipBlanks (s : List Char) : List Char :=
  s.dropWhile fun c => c = ' ' ∨ c = '\n' ∨ c = '\t' ∨ c = '\r'

/-- A part of a string: a character, or a 16-bit unit given by a `\u` escape. -/
inductive Piece where
  | char (c : Char)
  | unit (n : Nat)

def unit? (a b c d : Char) : Option Nat := Plain.number? 16 [a, b, c, d]

def simpleEscape? : Char → Option Char
  | '"' => some '"'
  | '\\' => some '\\'
  | '/' => some '/'
  | 'b' => some '\x08'
  | 'f' => some '\x0c'
  | 'n' => some '\n'
  | 'r' => some '\r'
  | 't' => some '\t'
  | _ => none

def pieces : List Char → Option (List Piece × List Char)
  | [] => none
  | '"' :: rest => some ([], rest)
  | '\\' :: 'u' :: a :: b :: c :: d :: rest => do
    let n ← unit? a b c d
    let (ps, rest) ← pieces rest
    return (.unit n :: ps, rest)
  | '\\' :: e :: rest => do
    let c ← simpleEscape? e
    let (ps, rest) ← pieces rest
    return (.char c :: ps, rest)
  | c :: rest =>
    if c.toNat < 0x20 ∨ c = '\\' then none
    else do
      let (ps, rest) ← pieces rest
      return (.char c :: ps, rest)

def isHighSurrogate (n : Nat) : Bool := 0xD800 ≤ n && n < 0xDC00
def isLowSurrogate (n : Nat) : Bool := 0xDC00 ≤ n && n < 0xE000

/-- A high surrogate has to be followed by a low one, and a low one may not stand elsewhere. -/
def join : List Piece → Option (List Char)
  | [] => some []
  | .char c :: rest => (join rest).map (c :: ·)
  | .unit n :: .unit m :: rest =>
    if isHighSurrogate n && isLowSurrogate m then
      (join rest).map (Char.ofNat (0x10000 + (n - 0xD800) * 0x400 + (m - 0xDC00)) :: ·)
    else if isHighSurrogate n || isLowSurrogate n then none
    else (join (.unit m :: rest)).map (Char.ofNat n :: ·)
  | .unit n :: rest =>
    if isHighSurrogate n || isLowSurrogate n then none
    else (join rest).map (Char.ofNat n :: ·)

def string (s : List Char) : Option (Node × List Char) := do
  let (ps, rest) ← pieces s
  return (((join ps).map fun cs => Node.text (String.ofList cs)).getD .unusable, rest)

def absorb (n : Nat) : List Char → Nat × Nat
  | [] => (n, 0)
  | c :: rest =>
    let next := n * 10 + (c.toNat - '0'.toNat)
    if next < Nat.pow 2 64 then
      let (total, used) := absorb next rest
      (total, used + 1)
    else (n, 0)

/-- A number with a point or an exponent, or one that fits no integer word. -/
def floating (negative : Bool) (whole fraction : List Char) (exponent : Int) : Node :=
  let (n, used) := absorb 0 whole
  let (n, used') := absorb n fraction
  let power := ((whole.length - used : Nat) : Int) - (used' : Int) + exponent
  ((Binary64.ofScaled? negative n power).map .float).getD .unusable

def exponent? : List Char → Option (Option Int × List Char)
  | e :: rest =>
    if e = 'e' ∨ e = 'E' then
      let (negative, r) := Plain.sign rest
      let digits := r.takeWhile Char.isDigit
      (Plain.number? 10 digits).map fun n =>
        (some (if negative then -(n : Int) else n), r.dropWhile Char.isDigit)
    else some (none, e :: rest)
  | [] => some (none, [])

def fraction? : List Char → Option (Option (List Char) × List Char)
  | '.' :: rest =>
    let digits := rest.takeWhile Char.isDigit
    if digits.isEmpty then none else some (some digits, rest.dropWhile Char.isDigit)
  | rest => some (none, rest)

/-- An integer is kept exactly if it fits a signed or an unsigned 64-bit word; a negative zero is a
float. -/
def number (s : List Char) : Option (Node × List Char) := do
  let (negative, s) := match s with
    | '-' :: r => (true, r)
    | r => (false, r)
  let whole := s.takeWhile Char.isDigit
  let n ← Plain.number? 10 whole
  if whole.headD ' ' = '0' ∧ 1 < whole.length then none
  let (fraction, rest) ← fraction? (s.dropWhile Char.isDigit)
  let (exponent, rest) ← exponent? rest
  match fraction, exponent with
  | none, none =>
    if !negative && n < Nat.pow 2 64 then return (.integer n, rest)
    else if negative && 0 < n && n ≤ Nat.pow 2 63 then return (.integer (-(n : Int)), rest)
    else return (floating negative whole [] 0, rest)
  | _, _ => return (floating negative whole (fraction.getD []) (exponent.getD 0), rest)

mutual

/-- One value and what follows it. Each step reads a character, so the length of the text bounds
their number. -/
def value : Nat → List Char → Option (Node × List Char)
  | 0, _ => none
  | fuel + 1, s =>
    match skipBlanks s with
    | 'n' :: 'u' :: 'l' :: 'l' :: rest => some (.null, rest)
    | 't' :: 'r' :: 'u' :: 'e' :: rest => some (.bool true, rest)
    | 'f' :: 'a' :: 'l' :: 's' :: 'e' :: rest => some (.bool false, rest)
    | '"' :: rest => string rest
    | '[' :: rest =>
      match skipBlanks rest with
      | ']' :: rest => some (.list [], rest)
      | rest => do
        let (items, rest) ← items fuel rest
        return (.list items, rest)
    | '{' :: rest =>
      match skipBlanks rest with
      | '}' :: rest => some (.map [], rest)
      | rest => do
        let (entries, rest) ← entries fuel rest
        return (.map entries, rest)
    | rest => number rest

def items : Nat → List Char → Option (List Node × List Char)
  | 0, _ => none
  | fuel + 1, s => do
    let (v, rest) ← value fuel s
    match skipBlanks rest with
    | ',' :: rest =>
      let (vs, rest) ← items fuel rest
      return (v :: vs, rest)
    | ']' :: rest => return ([v], rest)
    | _ => none

def entries : Nat → List Char → Option (List (Node × Node) × List Char)
  | 0, _ => none
  | fuel + 1, s => do
    let '"' :: rest := skipBlanks s | none
    let (k, rest) ← string rest
    let ':' :: rest := skipBlanks rest | none
    let (v, rest) ← value fuel rest
    match skipBlanks rest with
    | ',' :: rest =>
      let (vs, rest) ← entries fuel rest
      return ((k, v) :: vs, rest)
    | '}' :: rest => return ([(k, v)], rest)
    | _ => none

end

def maxDepth : Nat := 127

def document? (text : String) : Option Node := do
  let cs := text.toList
  let (node, rest) ← value (2 * cs.length + 2) cs
  if (skipBlanks rest).isEmpty then some (node.cap maxDepth) else none

end WireSchema.Json.Reader
