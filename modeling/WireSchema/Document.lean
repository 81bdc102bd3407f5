import WireSchema.Json
import WireSchema.Document.Plain

/-! A structured document as its text gives it: repeated keys are kept, and what a plain scalar
means is left open until someone asks for a text or for a value. -/
namespace WireSchema

inductive Node where
  | null
  | bool (value : Bool)
  | integer (value : Int)
  | float (value : Binary64)
  | text (value : String)
  /-- A scalar that is its own text and also the value which that text denotes. -/
  | plain (source : String)
  | tagged (tag : String) (content : Node)
  | list (items : List Node)
  | map (entries : List (Node × Node))
  /-- Something that may only be passed over: a number out of range, half of a surrogate pair, a
  container that is nested too deeply, an alias inside its own anchor. -/
  | unusable
  deriving Repr, Inhabited

namespace Node

mutual

/-- Containers below `depth` further levels become unusable. -/
def cap (depth : Nat) : Node → Node
  | .list items =>
    match depth with
    | 0 => .unusable
    | d + 1 => .list (capItems d items)
  | .map entries =>
    match depth with
    | 0 => .unusable
    | d + 1 => .map (capEntries d entries)
  | .tagged tag content => .tagged tag (cap depth content)
  | node => node

def capItems (depth : Nat) : List Node → List Node
  | [] => []
  | n :: rest => cap depth n :: capItems depth rest

def capEntries (depth : Nat) : List (Node × Node) → List (Node × Node)
  | [] => []
  | (k, v) :: rest => (cap depth k, cap depth v) :: capEntries depth rest

end

def coreTag (name : String) : String := "tag:yaml.org,2002:" ++ name

def isLocalTag (tag : String) : Bool := tag.startsWith "!"

def ofMeaning (source : String) : Plain.Meaning → Option Node
  | .null => some .null
  | .bool b => some (.bool b)
  | .integer n => some (.integer n)
  | .oversized => none
  | .float x => some (.float x)
  | .text => some (.text source)

/-- The value of a scalar under a tag: a core tag asks for its kind, any other tag for text. -/
def ofTagged (tag source : String) : Option Node :=
  if isLocalTag tag then none
  else if tag = coreTag "bool" then (Plain.bool? source).map .bool
  else if tag = coreTag "int" then (Plain.integerMeaning? source.toList).bind (ofMeaning source)
  else if tag = coreTag "float" then (Plain.float? source).map .float
  else if tag = coreTag "null" then if Plain.isNullWord source then some .null else none
  else some (.text source)

mutual

/-- Every plain scalar replaced by its value. There is no settled form if some part of the document
is unusable or carries a local tag. -/
def settle : Node → Option Node
  | .plain source => ofMeaning source (Plain.meaning source)
  | .tagged tag (.plain source) => ofTagged tag source
  | .tagged tag (.text source) => ofTagged tag source
  | .tagged tag content => if isLocalTag tag then none else settle content
  | .list items => (settleItems items).map .list
  | .map entries => (settleEntries entries).map .map
  | .unusable => none
  | node => some node

def settleItems : List Node → Option (List Node)
  | [] => some []
  | n :: rest => do
    let n ← settle n
    let rest ← settleItems rest
    return n :: rest

def settleEntries : List (Node × Node) → Option (List (Node × Node))
  | [] => some []
  | (k, v) :: rest => do
    let k ← settle k
    let v ← settle v
    let rest ← settleEntries rest
    return (k, v) :: rest

end

def text? : Node → Option String
  | .text s => some s
  | .plain s => some s
  | .tagged _ content => text? content
  | _ => none

def bool? : Node → Option Bool
  | .bool b => some b
  | .plain s => Plain.bool? s
  | .tagged _ (.plain s) => Plain.bool? s
  | _ => none

def natUpTo? (limit : Nat) : Node → Option Nat
  | .integer n => if 0 ≤ n ∧ n ≤ limit then some n.toNat else none
  | _ => none

def word? : Node → Option Nat := natUpTo? (Nat.pow 2 64 - 1)

def number? : Node → Option Binary64
  | .integer n => some (.ofInt n)
  | .float x => some x
  | _ => none

/-- The items of a list; an empty plain scalar is the empty list. -/
def items? : Node → Option (List Node)
  | .list items => some items
  | .plain s => if s.isEmpty then some [] else none
  | .tagged _ content => items? content
  | _ => none

def entries? : Node → Option (List (Node × Node))
  | .map entries => some entries
  | .plain s => if s.isEmpty then some [] else none
  | .tagged _ content => entries? content
  | _ => none

def optional? {α : Type} (read : Node → Option α) (node : Node) : Option (Option α) :=
  match node with
  | .null => some none
  | .plain s => if Plain.isNull s then some none else (read node).map some
  | .tagged tag (.plain s) =>
    if tag = coreTag "null" then if Plain.isNullWord s then some none else none
    else (read node).map some
  | _ => (read node).map some

def listOf? {α : Type} (read : Node → Option α) (node : Node) : Option (List α) := do
  (← node.items?).mapM read

/-- A float that is not finite has no literal form and becomes null. -/
def ofFloat (x : Binary64) : Json := if x.isFinite then .float x else .null

def scalarJson? : Node → Option Json
  | .null => some .null
  | .bool b => some (.bool b)
  | .integer n => some (.integer n)
  | .float x => some (ofFloat x)
  | .text s => some (.string s)
  | _ => none

mutual

/-- The literal value that the document stands for, the fields of its objects sorted by key. -/
def json? : Node → Option Json
  | .plain source => (ofMeaning source (Plain.meaning source)).bind scalarJson?
  | .tagged tag (.plain source) => (ofTagged tag source).bind scalarJson?
  | .tagged tag (.text source) => (ofTagged tag source).bind scalarJson?
  | .tagged tag content => if isLocalTag tag then none else json? content
  | .list items => (jsonItems? items).map .array
  | .map entries => (jsonEntries? entries).map Json.ofEntries
  | node => scalarJson? node

def jsonItems? : List Node → Option (List Json)
  | [] => some []
  | n :: rest => do
    let n ← json? n
    let rest ← jsonItems? rest
    return n :: rest

def jsonEntries? : List (Node × Node) → Option (List (String × Json))
  | [] => some []
  | (k, v) :: rest => do
    let k ← k.text?
    let v ← json? v
    let rest ← jsonEntries? rest
    return (k, v) :: rest

end

end Node
end WireSchema
