import WireSchema.Json
import WireSchema.Binary64.Shortest

/-! The text of JSON values, on one line or indented by two spaces. Only quotes, backslashes and
control characters are escaped, and a float that is not finite has the text `null`. -/
namespace WireSchema.Json

def hexDigit (n : Nat) : Char := (Nat.toDigits 16 n).headD '0'

def escape (c : Char) : List Char :=
  match c with
  | '"' => ['\\', '"']
  | '\\' => ['\\', '\\']
  | '\n' => ['\\', 'n']
  | '\r' => ['\\', 'r']
  | '\t' => ['\\', 't']
  | '\x08' => ['\\', 'b']
  | '\x0c' => ['\\', 'f']
  | c =>
    if c.toNat < 0x20 then ['\\', 'u', '0', '0', hexDigit (c.toNat / 16), hexDigit (c.toNat % 16)]
    else [c]

def quote (s : String) : String := String.ofList ('"' :: s.toList.flatMap escape ++ ['"'])

def floatText (x : Binary64) : String := x.text?.getD "null"

mutual

def compact : Json → String
  | null => "null"
  | bool b => if b then "true" else "false"
  | integer n => toString n
  | float x => floatText x
  | string s => quote s
  | array items => "[" ++ ",".intercalate (compactItems items) ++ "]"
  | object fields => "\x7b" ++ ",".intercalate (compactFields fields) ++ "\x7d"

def compactItems : List Json → List String
  | [] => []
  | v :: rest => compact v :: compactItems rest

def compactFields : List (String × Json) → List String
  | [] => []
  | (k, v) :: rest => (quote k ++ ":" ++ compact v) :: compactFields rest

end

def lineBreak (depth : Nat) : String := String.ofList ('\n' :: List.replicate (2 * depth) ' ')

def bracketed (left right : String) (depth : Nat) : List String → String
  | [] => left ++ right
  | parts =>
    left ++ lineBreak (depth + 1) ++ ("," ++ lineBreak (depth + 1)).intercalate parts ++
      lineBreak depth ++ right

mutual

def prettyAt (depth : Nat) : Json → String
  | null => "null"
  | bool b => if b then "true" else "false"
  | integer n => toString n
  | float x => floatText x
  | string s => quote s
  | array items => bracketed "[" "]" depth (prettyItems depth items)
  | object fields => bracketed "\x7b" "\x7d" depth (prettyFields depth fields)

def prettyItems (depth : Nat) : List Json → List String
  | [] => []
  | v :: rest => prettyAt (depth + 1) v :: prettyItems depth rest

def prettyFields (depth : Nat) : List (String × Json) → List String
  | [] => []
  | (k, v) :: rest => (quote k ++ ": " ++ prettyAt (depth + 1) v) :: prettyFields depth rest

end

/-- The text on several lines, two spaces for each level. -/
def pretty (v : Json) : String := prettyAt 0 v

end WireSchema.Json
