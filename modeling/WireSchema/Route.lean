import WireSchema.Text.Case

/-! The routes of operations and the ids of the resources that they address. -/
namespace WireSchema.Route

def splitQuery (path : List Char) : List Char × Option (List Char) :=
  match path.dropWhile (· ≠ '?') with
  | [] => (path, none)
  | _ :: query => (path.takeWhile (· ≠ '?'), some query)

def dropFinalSlash : List Char → List Char
  | [] => []
  | ['/'] => []
  | c :: rest => c :: dropFinalSlash rest

/-- A path without its query and without a slash right before it. -/
def withoutQuery (path : String) : String :=
  match splitQuery path.toList with
  | (_, none) => path
  | (url, some _) => String.ofList (dropFinalSlash url)

/-- The route that addresses a resource. A shared route keeps its query. -/
def resourcePath (path : String) (shared : Bool) : String :=
  if shared then path else withoutQuery path

/-- The parts between slashes; there is always one more than there are slashes. -/
def segments : List Char → List (List Char)
  | [] => [[]]
  | '/' :: rest => [] :: segments rest
  | c :: rest =>
    match segments rest with
    | s :: more => (c :: s) :: more
    | [] => [[c]]

def isBrace (c : Char) : Bool := c == '{' || c == '}'

def isPlaceholder : List Char → Bool
  | '{' :: rest => rest.getLast? == some '}' && !rest.dropLast.any isBrace
  | _ => false

/-- A segment with the names of its placeholders left out, where `name` is what follows the last
open brace, in reverse. A brace that is not closed before the next one opens, or not at all,
stays. -/
def dropNamesFrom : Option (List Char) → List Char → List Char
  | none, [] => []
  | some name, [] => '{' :: name.reverse
  | none, c :: rest =>
    if c = '{' then dropNamesFrom (some []) rest else c :: dropNamesFrom none rest
  | some name, c :: rest =>
    if c = '}' then '{' :: '}' :: dropNamesFrom none rest
    else if c = '{' then '{' :: name.reverse ++ dropNamesFrom (some []) rest
    else dropNamesFrom (some (c :: name)) rest

/-- A segment with the names of its placeholders left out. -/
def dropNames (segment : List Char) : List Char := dropNamesFrom none segment

/-- The normal form of the segment at a position. What stands before the first slash is kept, and so
is a placeholder right behind it. -/
def normalSegment (position : Nat) (segment : List Char) : List Char :=
  if position = 0 ∨ (position = 1 ∧ isPlaceholder segment) then segment else dropNames segment

/-- The id of the resource at a path: no names in placeholders and no capitals, apart from the
query, which is kept. -/
def resourceId (path : String) : String :=
  let (url, query) := splitQuery path.toList
  let normal := (segments url).mapIdx normalSegment
  let id := Text.toLower (List.intercalate ['/'] normal)
  String.ofList (id ++ match query with
    | some query => '?' :: query
    | none => [])

end WireSchema.Route
