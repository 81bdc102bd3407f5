import WireSchema.Json.Printer
import WireSchema.Yaml.Cursor

/-! Values as YAML, one entry on a line and deeper entries indented by two columns; the items of a
list are not indented below their key. A text is written without quotes if it then reads back as
itself. -/
namespace WireSchema.Yaml

inductive Style where
  | plain
  | single
  | double
  /-- On lines of its own. -/
  | literal
  deriving DecidableEq, Repr

def isPrintable (c : Char) : Bool :=
  isAllowed c && c != '\t' && c != '\r' && c != '\u0085' && c != '\ufeff'

def hasPair (p q : Char → Bool) : List Char → Bool
  | a :: b :: rest => (p a && q b) || hasPair p q (b :: rest)
  | _ => false

def isIndicator (c : Char) : Bool := "#,[]\x7b\x7d&*!|>'\"%@\x60".toList.contains c

/-- Whether a mark of the grammar stands in a text: a `:` before a gap or a `#` behind one. -/
def hasMark : List Char → Bool
  | [] => false
  | c :: rest =>
    (c == ':' && atGap rest) || ((isBlank c || isBreak c) && rest.headD ' ' == '#') || hasMark rest

def looksLikeSyntax (text : List Char) : Bool :=
  Cursor.dashes.isPrefixOf text || Cursor.points.isPrefixOf text || hasMark text ||
    match text with
    | [] => false
    | c :: rest => isIndicator c || ((c == '?' || c == '-') && atGap rest)

def isSpace (c : Char) : Bool := c == ' '

/-- Neither quotes nor lines of its own keep a text that has characters to escape or a space at the
end of a line. -/
def needsEscapes (text : List Char) : Bool :=
  !text.all isPrintable || hasPair isSpace isBreak text

def isGap (c : Char) : Bool := isSpace c || isBreak c

def plainAllowed (text : List Char) : Bool :=
  !(text.head?.any isGap || text.getLast?.any isGap || text.any isBreak || looksLikeSyntax text)

/-- A text in single quotes loses the spaces at the start of its lines. -/
def singleAllowed (text : List Char) : Bool := !hasPair isBreak isSpace text

def readsAsText (text : String) : Bool :=
  Plain.meaning text == .text && !Plain.isZeroPadded text.toList

def quotedStyle (text : List Char) : Style :=
  if !needsEscapes text && singleAllowed text then .single else .double

/-- The style of a text. Texts of several lines stand on lines of their own if they can. -/
def styleOf (text : String) : Style :=
  let cs := text.toList
  if cs.contains '\n' then
    if needsEscapes cs || cs.getLast?.any isSpace then .double else .literal
  else if readsAsText text && !needsEscapes cs && plainAllowed cs then .plain
  else quotedStyle cs

def hexDigits (width n : Nat) : List Char :=
  let digits := (Nat.toDigits 16 n).map Char.toUpper
  List.replicate (width - digits.length) '0' ++ digits

def escapeCode (c : Char) : List Char :=
  match c with
  | '\x00' => ['0']
  | '\x07' => ['a']
  | '\x08' => ['b']
  | '\t' => ['t']
  | '\n' => ['n']
  | '\x0b' => ['v']
  | '\x0c' => ['f']
  | '\r' => ['r']
  | '\x1b' => ['e']
  | '"' => ['"']
  | '\\' => ['\\']
  | '\u0085' => ['N']
  | '\u2028' => ['L']
  | '\u2029' => ['P']
  | c =>
    if c.toNat ≤ 0xFF then 'x' :: hexDigits 2 c.toNat
    else if c.toNat ≤ 0xFFFF then 'u' :: hexDigits 4 c.toNat
    else 'U' :: hexDigits 8 c.toNat

def doubleChar (c : Char) : List Char :=
  if !isPrintable c || isBreak c || c == '"' || c == '\\' then '\\' :: escapeCode c else [c]

/-- The inside of single quotes: a quote is written twice, and after line breaks the line is
indented. `fresh` tells whether a line break has just been written. -/
def singleChars (indent : List Char) : (fresh : Bool) → List Char → List Char
  | fresh, [] => if fresh then indent else []
  | fresh, c :: rest =>
    if isBreak c then c :: singleChars indent true rest
    else (if fresh then indent else []) ++ (if c == '\'' then ['\'', '\''] else [c]) ++
      singleChars indent false rest

def literalChars (indent : List Char) : (fresh : Bool) → List Char → List Char
  | _, [] => []
  | fresh, c :: rest =>
    if isBreak c then c :: literalChars indent true rest
    else (if fresh then indent else []) ++ c :: literalChars indent false rest

/-- What follows the bar of a literal: its indentation if its first line would hide it, and what
becomes of the line breaks at its end. -/
def literalHint (text : List Char) : List Char :=
  (if text.head?.any isGap then ['2'] else []) ++
    match text.reverse with
    | [] => ['-']
    | last :: before =>
      if !isBreak last then ['-']
      else if before.isEmpty || before.head?.any isBreak then ['+']
      else []

def spaces (n : Nat) : List Char := List.replicate n ' '

def scalarChars (indent : Nat) (text : String) : List Char :=
  let cs := text.toList
  match styleOf text with
  | .plain => cs
  | .single => '\'' :: singleChars (spaces indent) false cs ++ ['\'']
  | .double => '"' :: cs.flatMap doubleChar ++ ['"']
  | .literal => '|' :: literalHint cs ++ '\n' :: literalChars (spaces indent) true cs

def keyText (key : String) : String :=
  let cs := key.toList
  String.ofList (
    if styleOf key = .plain then cs
    else if needsEscapes cs || cs.any isBreak then '"' :: cs.flatMap doubleChar ++ ['"']
    else '\'' :: singleChars [] false cs ++ ['\''])

def endLine (cs : List Char) : String :=
  String.ofList (if cs.getLast?.any isBreak then cs else cs ++ ['\n'])

def scalarLine (indent : Nat) : Json → String
  | .string s => endLine (scalarChars indent s)
  | v => endLine v.compact.toList

def indentation (n : Nat) : String := String.ofList (spaces n)

def joinEntries (indent : Nat) (entries : List String) : String :=
  (indentation indent).intercalate entries

mutual

def afterKey (indent : Nat) : Json → String
  | .array items =>
    if items.isEmpty then " []\n"
    else "\n" ++ indentation indent ++ joinEntries indent (itemTexts indent items)
  | .object fields =>
    if fields.isEmpty then " \x7b\x7d\n"
    else
      "\n" ++ indentation (indent + 2) ++
        joinEntries (indent + 2) (fieldTexts (indent + 2) fields)
  | v => " " ++ scalarLine (indent + 2) v

def afterDash (indent : Nat) : Json → String
  | .array items =>
    if items.isEmpty then "[]\n" else joinEntries (indent + 2) (itemTexts (indent + 2) items)
  | .object fields =>
    if fields.isEmpty then "\x7b\x7d\n"
    else joinEntries (indent + 2) (fieldTexts (indent + 2) fields)
  | v => scalarLine (indent + 2) v

def itemTexts (indent : Nat) : List Json → List String
  | [] => []
  | v :: rest => ("- " ++ afterDash indent v) :: itemTexts indent rest

def fieldTexts (indent : Nat) : List (String × Json) → List String
  | [] => []
  | (k, v) :: rest => (keyText k ++ ":" ++ afterKey indent v) :: fieldTexts indent rest

end

def print : Json → String
  | .array items => if items.isEmpty then "[]\n" else joinEntries 0 (itemTexts 0 items)
  | .object fields => if fields.isEmpty then "\x7b\x7d\n" else joinEntries 0 (fieldTexts 0 fields)
  | v => scalarLine 2 v

end WireSchema.Yaml
