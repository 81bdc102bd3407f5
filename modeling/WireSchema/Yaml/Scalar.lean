import WireSchema.Yaml.Cursor

/-! The text of plain, quoted and block scalars. A line break between two words is folded into a
space, and further ones are kept. -/
namespace WireSchema.Yaml

structure Gap where
  /-- Whether a line break was passed, so that blanks are indentation. -/
  leading : Bool := false
  blanks : List Char := []
  /-- The first line break. -/
  first : List Char := []
  /-- The line breaks after it. -/
  more : List Char := []

namespace Gap

def text (gap : Gap) : List Char :=
  if !gap.leading then gap.blanks
  else if gap.first.headD ' ' = '\n' then (if gap.more.isEmpty then [' '] else gap.more)
  else gap.first ++ gap.more

def addBlank (gap : Gap) (c : Char) : Gap :=
  if gap.leading then gap else { gap with blanks := gap.blanks ++ [c] }

def addBreak (gap : Gap) (text : List Char) : Gap :=
  if gap.leading then { gap with more := gap.more ++ text }
  else { gap with leading := true, blanks := [], first := text }

end Gap

/-- The blanks and line breaks from a cursor on. Tabs may not indent a line to less than `indent`
columns. -/
def scanGap (indent : Nat) : Nat → Cursor → Gap → Option (Gap × Cursor)
  | 0, c, gap => some (gap, c)
  | fuel + 1, c, gap =>
    match c.rest with
    | [] => some (gap, c)
    | x :: _ =>
      if isBlank x then
        if gap.leading && c.column < indent && x == '\t' then none
        else scanGap indent fuel c.next (gap.addBlank x)
      else if isBreak x then scanGap indent fuel c.next (gap.addBreak c.breakText)
      else some (gap, c)

def isFlowMark (c : Char) : Bool := c == ',' || c == '[' || c == ']' || c == '{' || c == '}'

/-- Whether a plain scalar ends here, or `none` if it may not go on like this. -/
def plainEnd? (flow : Bool) : List Char → Option Bool
  | ':' :: rest =>
    if flow && (match rest with
      | x :: _ => isFlowMark x || x == '?'
      | [] => false) then none
    else some (atGap rest)
  | c :: _ => some (flow && isFlowMark c)
  | [] => some true

structure Scanned where
  text : List Char
  leading : Bool
  cursor : Cursor

def plainWords (flow : Bool) (indent : Nat) :
    Nat → Cursor → Gap → List Char → Option Scanned
  | 0, _, _, _ => none
  | fuel + 1, c, gap, text =>
    if atGap c.rest then
      if c.rest.isEmpty then some ⟨text, gap.leading, c⟩
      else do
        let (gap, c) ← scanGap indent c.rest.length c gap
        if (!flow && c.column < indent) || c.atAnyDocumentMark || c.rest.headD ' ' = '#' then
          some ⟨text, gap.leading, c⟩
        else plainWords flow indent fuel c gap text
    else
      match plainEnd? flow c.rest with
      | none => none
      | some true => some ⟨text, gap.leading, c⟩
      | some false =>
        plainWords flow indent fuel c.next {} (c.rest.headD ' ' :: (gap.text.reverse ++ text))

def plain? (flow : Bool) (indent : Nat) (c : Cursor) : Option Scanned :=
  if c.atAnyDocumentMark then some ⟨[], false, c⟩
  else (plainWords flow indent (2 * c.rest.length + 2) c {} []).map fun s =>
    { s with text := s.text.reverse }

def escapeChar? : Char → Option Char
  | '0' => some '\x00'
  | 'a' => some '\x07'
  | 'b' => some '\x08'
  | 't' => some '\t'
  | '\t' => some '\t'
  | 'n' => some '\n'
  | 'v' => some '\x0b'
  | 'f' => some '\x0c'
  | 'r' => some '\r'
  | 'e' => some '\x1b'
  | ' ' => some ' '
  | '"' => some '"'
  | '/' => some '/'
  | '\\' => some '\\'
  | 'N' => some '\u0085'
  | '_' => some '\u00a0'
  | 'L' => some '\u2028'
  | 'P' => some '\u2029'
  | _ => none

def escapeDigits? : Char → Option Nat
  | 'x' => some 2
  | 'u' => some 4
  | 'U' => some 8
  | _ => none

def escape? (c : Cursor) : Option (Char × Cursor) :=
  match c.rest with
  | [] => none
  | x :: rest =>
    match escapeDigits? x with
    | none => (escapeChar? x).map (·, c.next)
    | some count =>
      let digits := rest.take count
      match Plain.number? 16 digits with
      | none => none
      | some n =>
        if digits.length = count ∧ n.isValidChar then some (Char.ofNat n, c.skip (count + 1))
        else none

/-- A scalar in quotes whose opening quote has been passed, the text so far in reverse. -/
def quotedWords (quote : Char) : Nat → Cursor → List Char → Option (List Char × Cursor)
  | 0, _, _ => none
  | fuel + 1, c, text =>
    if c.atAnyDocumentMark then none else
    match c.rest with
    | [] => none
    | x :: rest =>
      if x == quote then
        if quote == '\'' && rest.headD ' ' == '\'' then
          quotedWords quote fuel (c.skip 2) ('\'' :: text)
        else some (text, c.next)
      else if x == '\\' && quote == '"' then
        match rest with
        | y :: _ =>
          if isBreak y then
            let c := c.next.next
            if c.rest.headD ' ' == quote then some (text, c.next)
            else do
              let (gap, c) ← scanGap 0 c.rest.length c { leading := true }
              quotedWords quote fuel c (gap.text.reverse ++ text)
          else do
            let (y, c) ← escape? c.next
            quotedWords quote fuel c (y :: text)
        | [] => none
      else if atGap c.rest then do
        let (gap, c) ← scanGap 0 c.rest.length c {}
        quotedWords quote fuel c (gap.text.reverse ++ text)
      else quotedWords quote fuel c.next (x :: text)

def quoted? (quote : Char) (c : Cursor) : Option (List Char × Cursor) :=
  (quotedWords quote (c.rest.length + 1) c.next []).map fun (text, c) => (text.reverse, c)

/-- What happens to the line breaks at the end of a block scalar. -/
inductive Chomping where
  | strip
  | clip
  | keep
  deriving DecidableEq

structure BlockHeader where
  folded : Bool
  chomping : Chomping
  /-- The indentation relative to the parent, if it is given. -/
  increment : Option Nat

def chomping? : Char → Option Chomping
  | '+' => some .keep
  | '-' => some .strip
  | _ => none

def increment? (c : Char) : Option (Option Nat) :=
  if c.isDigit then if c = '0' then none else some (some (c.toNat - '0'.toNat)) else some none

def blockHeader? (c : Cursor) : Option (BlockHeader × Cursor) := do
  let folded := c.rest.headD ' ' == '>'
  let c := c.next
  let (chomping, increment, c) ←
    match chomping? (c.rest.headD ' ') with
    | some chomping =>
      let c := c.next
      let increment ← increment? (c.rest.headD ' ')
      pure (chomping, increment, if increment.isSome then c.next else c)
    | none =>
      let increment ← increment? (c.rest.headD ' ')
      let c := if increment.isSome then c.next else c
      match increment, chomping? (c.rest.headD ' ') with
      | some _, some chomping => pure (chomping, increment, c.next)
      | _, _ => pure (Chomping.clip, increment, c)
  let c := c.skipComment
  if !atBreakOrEnd c.rest then none
  return (⟨folded, chomping, increment⟩, c.next)

def skipIndent (indent : Nat) : Nat → Cursor → Cursor
  | 0, c => c
  | fuel + 1, c =>
    if (indent == 0 || c.column < indent) && c.rest.headD 'x' == ' ' then
      skipIndent indent fuel c.next
    else c

/-- Empty lines before or between the lines of a block scalar: their line breaks and the greatest
column that was reached. An `indent` of 0 is not known yet. -/
def blockBreaks (indent : Nat) :
    Nat → Cursor → List Char → Nat → Option (List Char × Nat × Cursor)
  | 0, c, breaks, reached => some (breaks, reached, c)
  | fuel + 1, c, breaks, reached =>
    let c := skipIndent indent c.rest.length c
    let reached := max reached c.column
    match c.rest with
    | x :: _ =>
      if (indent == 0 || c.column < indent) && x == '\t' then none
      else if isBreak x then blockBreaks indent fuel c.next (breaks ++ c.breakText) reached
      else some (breaks, reached, c)
    | [] => some (breaks, reached, c)

/-- The lines of a block scalar. `first` is the line break before the current line and `more` are
the empty lines after it; `indented` tells whether the line before started with a blank. -/
def blockLines (header : BlockHeader) (indent : Nat) :
    Nat → Cursor → (first more : List Char) → (indented : Bool) → List Char →
    Option (List Char × Cursor)
  | 0, _, _, _, _, _ => none
  | fuel + 1, c, first, more, indented, text =>
    if c.column == indent && !c.rest.isEmpty then do
      let blank := isBlank (c.rest.headD 'x')
      let joint :=
        if header.folded && first.headD ' ' == '\n' && !indented && !blank then
          if more.isEmpty then [' '] else []
        else first
      let (line, d) := c.takeWhile (!isBreak ·)
      let (breaks, _, e) ← blockBreaks indent d.rest.length d.next [] 0
      blockLines header indent fuel e d.breakText breaks blank (text ++ joint ++ more ++ line)
    else
      let tail := match header.chomping with
        | .strip => []
        | .clip => first
        | .keep => first ++ more
      some (text ++ tail, c)

/-- The block scalar at a cursor inside of a block that is indented by `parent` columns, `-1` at the
top. Without an indicator, the first line that is not empty sets the indentation. -/
def block? (parent : Int) (c : Cursor) : Option (List Char × Cursor) := do
  let (header, c) ← blockHeader? c
  let given := match header.increment with
    | some n => if 0 ≤ parent then parent.toNat + n else n
    | none => 0
  let (breaks, reached, c) ← blockBreaks given (c.rest.length + 1) c [] 0
  let indent := if given = 0 then max reached (max (parent + 1).toNat 1) else given
  blockLines header indent (c.rest.length + 2) c [] breaks false []

end WireSchema.Yaml
