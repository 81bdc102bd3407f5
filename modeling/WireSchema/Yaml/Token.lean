import WireSchema.Yaml.Scalar

/-! The tokens of a YAML text. Indentation opens and closes blocks. A key needs no mark of its own:
when a `:` comes, the place where the key started is looked up and the key token is put there. -/
namespace WireSchema.Yaml

inductive Token where
  | documentStart
  | documentEnd
  | version (major minor : Nat)
  | tagDirective (handle stem : String)
  | blockSequence
  | blockMapping
  | blockEnd
  | flowSequence
  | flowSequenceEnd
  | flowMapping
  | flowMappingEnd
  | blockEntry
  | flowEntry
  | key
  | value
  | alias (name : String)
  | anchor (name : String)
  | tag (handle suffix : String)
  | scalar (text : String) (plain : Bool)
  deriving DecidableEq, Repr

/-- A place where a key may have started. A key that stands at the indentation of its block is
required to be one. -/
structure KeyStart where
  token : Nat
  required : Bool
  index : Nat
  line : Nat
  column : Nat

structure Lexer where
  cursor : Cursor
  tokens : Array Token := #[]
  /-- The column of the current block, `-1` outside of all blocks. -/
  indent : Int := -1
  outerIndents : List Int := []
  /-- The number of brackets and braces that are open. -/
  depth : Nat := 0
  keyAllowed : Bool := true
  keyStart : Option KeyStart := none
  /-- One for each open bracket or brace. -/
  outerKeyStarts : List (Option KeyStart) := []

namespace Lexer

def emit (l : Lexer) (t : Token) : Lexer := { l with tokens := l.tokens.push t }

def allowKey (l : Lexer) (allowed : Bool) : Lexer := { l with keyAllowed := allowed }

def moveTo (l : Lexer) (c : Cursor) : Lexer := { l with cursor := c }

/-- Passes what separates tokens. Tabs may not stand where a key may start in a block. -/
def skipGap : Nat → Lexer → Lexer
  | 0, l => l
  | fuel + 1, l =>
    let c := l.cursor
    let c := if c.index == 0 && c.rest.headD ' ' == '\ufeff' then c.next else c
    let c := c.skipWhile fun x => x == ' ' || ((0 < l.depth || !l.keyAllowed) && x == '\t')
    let c := if c.rest.headD ' ' == '#' then c.skipWhile (!isBreak ·) else c
    match c.rest with
    | [] => l.moveTo c
    | x :: _ =>
      if isBreak x then
        skipGap fuel { l with cursor := c.next, keyAllowed := l.depth == 0 || l.keyAllowed }
      else l.moveTo c

/-- A key has to end on the line on which it started, within 1024 characters. -/
def isStale (c : Cursor) (start : KeyStart) : Bool :=
  start.line < c.line || start.index + 1024 < c.index

/-- Forgets a key start that is out of reach; `none` if a key was required there. -/
def refresh (c : Cursor) : Option KeyStart → Option (Option KeyStart)
  | none => some none
  | some start =>
    if isStale c start then if start.required then none else some none else some (some start)

def refreshKeyStarts (l : Lexer) : Option Lexer := do
  let keyStart ← refresh l.cursor l.keyStart
  let outer ← l.outerKeyStarts.mapM (refresh l.cursor)
  return { l with keyStart := keyStart, outerKeyStarts := outer }

def dropKeyStart (l : Lexer) : Option Lexer :=
  match l.keyStart with
  | some start => if start.required then none else some { l with keyStart := none }
  | none => some l

def saveKeyStart (l : Lexer) : Option Lexer :=
  if l.keyAllowed then do
    let l ← l.dropKeyStart
    let c := l.cursor
    let required := l.depth == 0 && l.indent == c.column
    return { l with keyStart := some ⟨l.tokens.size, required, c.index, c.line, c.column⟩ }
  else some l

/-- Opens a block at a column that is further in than the current one, with its token put at the
place `at?` or else at the end. -/
def openBlock (l : Lexer) (column : Nat) (t : Token) (at? : Option Nat) : Lexer :=
  if l.depth == 0 && l.indent < column then
    { l with
      outerIndents := l.indent :: l.outerIndents
      indent := column
      tokens := match at? with
        | some i => l.tokens.insertIdxIfInBounds i t
        | none => l.tokens.push t }
  else l

def closeIndents (column : Int) : Int → List Int → Array Token → Int × List Int × Array Token
  | indent, [], tokens => (indent, [], tokens)
  | indent, outer :: rest, tokens =>
    if column < indent then closeIndents column outer rest (tokens.push .blockEnd)
    else (indent, outer :: rest, tokens)

def closeBlocks (l : Lexer) (column : Int) : Lexer :=
  if l.depth == 0 then
    let (indent, outer, tokens) := closeIndents column l.indent l.outerIndents l.tokens
    { l with indent := indent, outerIndents := outer, tokens := tokens }
  else l

def hexDigit? (c : Char) : Option Nat := Plain.digit? 16 c

def octet? : List Char → Option (Nat × List Char)
  | '%' :: a :: b :: rest => do return ((← hexDigit? a) * 16 + (← hexDigit? b), rest)
  | _ => none

def continuation? : Nat → Nat → List Char → Option (Nat × List Char)
  | 0, n, rest => some (n, rest)
  | count + 1, n, rest => do
    let (octet, rest) ← octet? rest
    if octet / 64 = 2 then continuation? count (n * 64 + octet % 64) rest else none

def encodedChar? (s : List Char) : Option (Char × List Char) := do
  let (octet, rest) ← octet? s
  let (n, rest) ←
    if octet < 0x80 then some (octet, rest)
    else if octet / 32 = 6 then continuation? 1 (octet % 32) rest
    else if octet / 16 = 14 then continuation? 2 (octet % 16) rest
    else if octet / 8 = 30 then continuation? 3 (octet % 8) rest
    else none
  return (Char.ofNat n, rest)

def isUriChar (verbatim : Bool) (c : Char) : Bool :=
  isWord c || ";/?:@&=+$.%!~*'()".toList.contains c ||
    (verbatim && (c == ',' || c == '[' || c == ']'))

def uri? (verbatim : Bool) : Nat → List Char → Option (List Char × Nat)
  | 0, _ => none
  | _ + 1, [] => some ([], 0)
  | fuel + 1, c :: rest =>
    if c == '%' then do
      let (x, after) ← encodedChar? (c :: rest)
      let (xs, used) ← uri? verbatim fuel after
      return (x :: xs, used + (rest.length + 1 - after.length))
    else if isUriChar verbatim c then do
      let (xs, used) ← uri? verbatim fuel rest
      return (c :: xs, used + 1)
    else some ([], 0)

def scanUri? (verbatim : Bool) (c : Cursor) : Option (List Char × Cursor) := do
  let (uri, used) ← uri? verbatim (c.rest.length + 1) c.rest
  return (uri, c.skip used)

def scanHandle? (c : Cursor) : Option (List Char × Cursor) :=
  if c.rest.headD ' ' == '!' then
    let (word, d) := c.next.takeWhile isWord
    if d.rest.headD ' ' == '!' then some ('!' :: word ++ ['!'], d.next)
    else some ('!' :: word, d)
  else none

/-- The tag at a cursor, as a handle that a directive may define and a suffix. -/
def scanTag? (flow : Bool) (c : Cursor) : Option (Token × Cursor) := do
  let (handle, suffix, c) ←
    if (c.rest.drop 1).headD ' ' == '<' then do
      let (uri, c) ← scanUri? true (c.skip 2)
      if uri.isEmpty || c.rest.headD ' ' != '>' then none
      some ([], uri, c.next)
    else do
      let (handle, d) ← scanHandle? c
      if 2 ≤ handle.length && handle.getLast? == some '!' then do
        let (uri, d) ← scanUri? false d
        if uri.isEmpty then none
        some (handle, uri, d)
      else do
        let (uri, d) ← scanUri? false d
        let suffix := handle.drop 1 ++ uri
        some (if suffix.isEmpty then ([], ['!'], d) else (['!'], suffix, d))
  if atGap c.rest || (flow && c.rest.headD ' ' == ',') then
    return (.tag (String.ofList handle) (String.ofList suffix), c)
  else none

def scanName? (c : Cursor) : Option (String × Cursor) :=
  let (name, c) := c.takeWhile isWord
  if !name.isEmpty && (atGap c.rest || "?:,]\x7d%@`".toList.contains (c.rest.headD ' ')) then
    some (String.ofList name, c)
  else none

def scanVersionNumber? (c : Cursor) : Option (Nat × Cursor) := do
  let (digits, c) := c.takeWhile Char.isDigit
  if 9 < digits.length then none
  return (← Plain.number? 10 digits, c)

def scanVersion? (c : Cursor) : Option (Token × Cursor) := do
  let (major, c) ← scanVersionNumber? (c.skipWhile isBlank)
  if c.rest.headD ' ' != '.' then none
  let (minor, c) ← scanVersionNumber? c.next
  return (.version major minor, c)

def scanTagDirective? (c : Cursor) : Option (Token × Cursor) := do
  let (handle, c) ← scanHandle? (c.skipWhile isBlank)
  if handle != ['!'] && (handle.length < 2 || handle.getLast? != some '!') then none
  if !isBlank (c.rest.headD 'x') then none
  let (stem, c) ← scanUri? true (c.skipWhile isBlank)
  if stem.isEmpty || !atGap c.rest then none
  return (.tagDirective (String.ofList handle) (String.ofList stem), c)

/-- The directive at a cursor, with the rest of its line. -/
def scanDirective? (c : Cursor) : Option (Token × Cursor) := do
  let (name, c) := c.next.takeWhile isWord
  if name.isEmpty || !atGap c.rest then none
  let (token, c) ←
    if name == "YAML".toList then scanVersion? c
    else if name == "TAG".toList then scanTagDirective? c
    else none
  let c := c.skipComment
  if atBreakOrEnd c.rest then return (token, c.next) else none

def mark (l : Lexer) (t : Token) (length : Nat) (allowed : Bool) : Option Lexer := do
  let l ← l.dropKeyStart
  return (l.emit t).moveTo (l.cursor.skip length) |>.allowKey allowed

def openFlow (l : Lexer) (t : Token) : Option Lexer := do
  let l ← l.saveKeyStart
  return { l with
    outerKeyStarts := l.keyStart :: l.outerKeyStarts
    keyStart := none
    depth := l.depth + 1
    keyAllowed := true
    cursor := l.cursor.next
    tokens := l.tokens.push t }

def closeFlow (l : Lexer) (t : Token) : Option Lexer := do
  let l ← l.dropKeyStart
  let l := match l.outerKeyStarts with
    | start :: rest => { l with keyStart := start, outerKeyStarts := rest, depth := l.depth - 1 }
    | [] => l
  return (l.emit t).moveTo l.cursor.next |>.allowKey false

def blockMark (l : Lexer) (block t : Token) (allowed : Bool) : Option Lexer :=
  if l.depth == 0 then
    if l.keyAllowed then (l.openBlock l.cursor.column block none).mark t 1 allowed else none
  else l.mark t 1 allowed

def valueMark (l : Lexer) : Option Lexer :=
  match l.keyStart with
  | some start =>
    let l := { l with tokens := l.tokens.insertIdxIfInBounds start.token .key, keyStart := none }
    let l := l.openBlock start.column .blockMapping (some start.token)
    some ((l.emit .value).moveTo l.cursor.next |>.allowKey false)
  | none =>
    if l.depth == 0 then
      if l.keyAllowed then
        let l := l.openBlock l.cursor.column .blockMapping none
        some ((l.emit .value).moveTo l.cursor.next |>.allowKey true)
      else none
    else some ((l.emit .value).moveTo l.cursor.next |>.allowKey false)

def plainScalar (l : Lexer) : Option Lexer := do
  let l ← l.saveKeyStart
  let s ← plain? (0 < l.depth) (l.indent + 1).toNat l.cursor
  return (l.emit (.scalar (String.ofList s.text) true)).moveTo s.cursor |>.allowKey s.leading

def quotedScalar (l : Lexer) (quote : Char) : Option Lexer := do
  let l ← l.saveKeyStart
  let (text, c) ← quoted? quote l.cursor
  return (l.emit (.scalar (String.ofList text) false)).moveTo c |>.allowKey false

def blockScalar (l : Lexer) : Option Lexer := do
  let l ← l.dropKeyStart
  let (text, c) ← block? l.indent l.cursor
  return (l.emit (.scalar (String.ofList text) false)).moveTo c |>.allowKey true

def nodeMark (l : Lexer) (scan : Cursor → Option (Token × Cursor)) : Option Lexer := do
  let l ← l.saveKeyStart
  let (t, c) ← scan l.cursor
  return (l.emit t).moveTo c |>.allowKey false

/-- Characters that start no plain scalar, or only if something other than a blank follows. -/
def isIndicator (c : Char) : Bool := "-?:,[]\x7b\x7d#&*!|>'\"%@`".toList.contains c

def startsPlain (flow : Bool) : List Char → Bool
  | [] => false
  | c :: rest =>
    !(isBlank c || isBreak c || isIndicator c) ||
      (c == '-' && !isBlank (rest.headD 'x')) ||
      (!flow && (c == '?' || c == ':') && !atGap rest)

/-- Directives and document marks stand outside of all blocks. -/
def documentMark (l : Lexer) (t : Token) (c : Cursor) : Option Lexer := do
  let l ← (l.closeBlocks (-1)).dropKeyStart
  return (l.emit t).moveTo c |>.allowKey false

def token (l : Lexer) (c : Char) (rest : List Char) : Option Lexer :=
  let flow := 0 < l.depth
  if l.cursor.column == 0 && c == '%' then do
    let (t, d) ← scanDirective? l.cursor
    l.documentMark t d
  else if l.cursor.atDocumentMark Cursor.dashes then l.documentMark .documentStart (l.cursor.skip 3)
  else if l.cursor.atDocumentMark Cursor.points then l.documentMark .documentEnd (l.cursor.skip 3)
  else if c == '[' then l.openFlow .flowSequence
  else if c == '{' then l.openFlow .flowMapping
  else if c == ']' then l.closeFlow .flowSequenceEnd
  else if c == '}' then l.closeFlow .flowMappingEnd
  else if c == ',' then l.mark .flowEntry 1 true
  else if c == '-' && atGap rest then l.blockMark .blockSequence .blockEntry true
  else if c == '?' && (flow || atGap rest) then l.blockMark .blockMapping .key (!flow)
  else if c == ':' && (flow || atGap rest) then l.valueMark
  else if c == '*' then l.nodeMark fun d => (scanName? d.next).map fun (n, d) => (.alias n, d)
  else if c == '&' then l.nodeMark fun d => (scanName? d.next).map fun (n, d) => (.anchor n, d)
  else if c == '!' then l.nodeMark (scanTag? flow)
  else if (c == '|' || c == '>') && !flow then l.blockScalar
  else if c == '\'' || c == '"' then l.quotedScalar c
  else if startsPlain flow (c :: rest) then l.plainScalar
  else none

def run : Nat → Lexer → Option (Array Token)
  | 0, _ => none
  | fuel + 1, l => do
    let l ← (l.skipGap (l.cursor.rest.length + 1)).refreshKeyStarts
    let l := l.closeBlocks l.cursor.column
    match l.cursor.rest with
    | [] =>
      let l ← (l.closeBlocks (-1)).dropKeyStart
      return l.tokens
    | c :: rest => run fuel (← l.token c rest)

end Lexer

def tokens? (text : String) : Option (List Token) :=
  let cs := match text.toList with
    | '\ufeff' :: rest => rest
    | cs => cs
  if cs.all isAllowed then (Lexer.run (cs.length + 1) { cursor := { rest := cs } }).map Array.toList
  else none

end WireSchema.Yaml
