import WireSchema.Document.Plain

/-! A place in a YAML text, and the classes of characters that its grammar knows. -/
namespace WireSchema.Yaml

def isAllowed (c : Char) : Bool :=
  let n := c.toNat
  n == 0x09 || n == 0x0A || n == 0x0D || (0x20 ≤ n && n ≤ 0x7E) || n == 0x85 ||
    (0xA0 ≤ n && n ≤ 0xD7FF) || (0xE000 ≤ n && n ≤ 0xFFFD) || 0x10000 ≤ n

def isBreak (c : Char) : Bool :=
  c == '\n' || c == '\r' || c == '\u0085' || c == '\u2028' || c == '\u2029'

def isBlank (c : Char) : Bool := c == ' ' || c == '\t'

def isWord (c : Char) : Bool := c.isAlphanum || c == '-' || c == '_'

def atGap : List Char → Bool
  | [] => true
  | c :: _ => isBlank c || isBreak c

def atBreakOrEnd : List Char → Bool
  | [] => true
  | c :: _ => isBreak c

structure Cursor where
  rest : List Char
  index : Nat := 0
  line : Nat := 0
  column : Nat := 0

namespace Cursor

/-- Passes one character; a carriage return and a line feed count as one line break. -/
def next (c : Cursor) : Cursor :=
  match c.rest with
  | [] => c
  | '\r' :: '\n' :: rest => ⟨rest, c.index + 2, c.line + 1, 0⟩
  | x :: rest =>
    if isBreak x then ⟨rest, c.index + 1, c.line + 1, 0⟩
    else ⟨rest, c.index + 1, c.line, c.column + 1⟩

theorem next_length_lt (c : Cursor) (h : c.rest ≠ []) : c.next.rest.length < c.rest.length := by
  unfold next
  split
  · contradiction
  · rename_i rest text
    simp only [text, List.length_cons]
    omega
  · rename_i x rest _ text
    split <;> simp only [text, List.length_cons] <;> omega

def skip (c : Cursor) : Nat → Cursor
  | 0 => c
  | n + 1 => c.next.skip n

def skipWhile (p : Char → Bool) (c : Cursor) : Cursor :=
  if _ : c.rest.head?.any p then c.next.skipWhile p else c
termination_by c.rest.length
decreasing_by
  rename_i h
  refine next_length_lt c fun e => ?_
  simp [e] at h

def takeWhile (p : Char → Bool) (c : Cursor) : List Char × Cursor :=
  (c.rest.takeWhile p, c.skipWhile p)

/-- The line break at the cursor as it is kept in a text: the usual ones become line feeds. -/
def breakText (c : Cursor) : List Char :=
  match c.rest with
  | '\u2028' :: _ => ['\u2028']
  | '\u2029' :: _ => ['\u2029']
  | x :: _ => if isBreak x then ['\n'] else []
  | [] => []

def startsWith (c : Cursor) (s : List Char) : Bool := s.isPrefixOf c.rest

def atDocumentMark (c : Cursor) (mark : List Char) : Bool :=
  c.column == 0 && c.startsWith mark && atGap (c.rest.drop 3)

def dashes : List Char := ['-', '-', '-']
def points : List Char := ['.', '.', '.']

def atAnyDocumentMark (c : Cursor) : Bool := c.atDocumentMark dashes || c.atDocumentMark points

def skipComment (c : Cursor) : Cursor :=
  let c := c.skipWhile isBlank
  if c.rest.headD ' ' = '#' then c.skipWhile (!isBreak ·) else c

end Cursor
end WireSchema.Yaml
