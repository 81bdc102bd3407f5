import WireSchema.Binary64

/-! JSON values. The fields of an object stand in the order in which they are written; a value that
was read as a literal has them sorted by key, one for each key. -/
namespace WireSchema

inductive Json where
  | null
  | bool (value : Bool)
  | integer (value : Int)
  | float (value : Binary64)
  | string (value : String)
  | array (items : List Json)
  | object (fields : List (String × Json))
  deriving Repr, Inhabited

namespace Json

def isNull : Json → Bool
  | null => true
  | _ => false

def isString : Json → Bool
  | string _ => true
  | _ => false

def isInteger : Json → Bool
  | integer _ => true
  | _ => false

def isNumber : Json → Bool
  | integer _ => true
  | float _ => true
  | _ => false

def isBool : Json → Bool
  | bool _ => true
  | _ => false

mutual

/-- Equality of values: an integer never equals a float, and the two zeros of a float are equal. -/
def same : Json → Json → Bool
  | null, null => true
  | bool a, bool b => a == b
  | integer a, integer b => a == b
  | float a, float b => a.same b
  | string a, string b => a == b
  | array a, array b => sameItems a b
  | object a, object b => sameFields a b
  | _, _ => false

def sameItems : List Json → List Json → Bool
  | [], [] => true
  | a :: as, b :: bs => same a b && sameItems as bs
  | _, _ => false

def sameFields : List (String × Json) → List (String × Json) → Bool
  | [], [] => true
  | (k, a) :: as, (l, b) :: bs => k == l && same a b && sameFields as bs
  | _, _ => false

end

def insertSorted (key : String) (value : Json) : List (String × Json) → List (String × Json)
  | [] => [(key, value)]
  | (k, v) :: rest =>
    if key = k then (key, value) :: rest
    else if key < k then (key, value) :: (k, v) :: rest
    else (k, v) :: insertSorted key value rest

/-- The object with these fields sorted by key; of two fields with one key the later wins. -/
def ofEntries (entries : List (String × Json)) : Json :=
  .object (entries.foldl (fun fields (k, v) => insertSorted k v fields) [])

def optionalField (key : String) : Option Json → List (String × Json)
  | some value => [(key, value)]
  | none => []

def flagField (key : String) (set : Bool) : List (String × Json) :=
  if set then [(key, .bool true)] else []

def ofOption {α : Type} (encode : α → Json) : Option α → Json
  | some a => encode a
  | none => .null

def ofList {α : Type} (encode : α → Json) (items : List α) : Json := .array (items.map encode)

end Json
end WireSchema
