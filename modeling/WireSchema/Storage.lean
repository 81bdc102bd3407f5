import WireSchema.OrderedMap

/-! The files that a command reads and writes, and a folder in memory that holds such files. -/
namespace WireSchema

inductive FileError where
  | notFound
  | isDirectory
  | notDirectory
  | alreadyExists
  | other (message : String)
  deriving DecidableEq, Repr

def FileError.message : FileError → String
  | notFound => "No such file or directory (os error 2)"
  | isDirectory => "Is a directory (os error 21)"
  | notDirectory => "Not a directory (os error 20)"
  | alreadyExists => "File exists (os error 17)"
  | other message => message

structure Storage (m : Type → Type) where
  isPresent : String → m Bool
  read : String → m (Except FileError String)
  /-- Creates a directory and those above it. One that is there already is no failure. -/
  makeDirectories : String → m (Except FileError Unit)
  write : String → String → m (Except FileError Unit)

namespace Storage

def join (directory file : String) : String :=
  if directory.isEmpty || directory.endsWith "/" then directory ++ file
  else directory ++ "/" ++ file

/-- The last part of a path that is a name: slashes at the end and single points are passed over. -/
def fileName? (path : String) : Option String :=
  match ((path.splitOn "/").filter fun s => s ≠ "" && s ≠ ".").getLast? with
  | some ".." => none
  | name => name

/-- What follows the last point of a file's name. A point in front of everything else is part of the
name. -/
def extension? (path : String) : Option String := do
  let parts := (← fileName? path).splitOn "."
  match parts with
  | [_] => none
  | ["", _] => none
  | parts => parts.getLast?

end Storage

inductive Entry where
  | file (content : String)
  | directory
  deriving DecidableEq, Repr

abbrev Trail := List String

/-- The entries of a folder. Nothing is known about what lies outside: there is nothing to read
there, and what is written there is not seen again. -/
structure Folder where
  entries : OrderedMap Trail Entry := .empty

namespace Folder

inductive Place where
  | inside (trail : Trail)
  | outside
  deriving DecidableEq, Repr

def entry? (f : Folder) (trail : Trail) : Option Entry :=
  if trail.isEmpty then some .directory else f.entries.get? trail

def put (f : Folder) (trail : Trail) (entry : Entry) : Folder := ⟨f.entries.put trail entry⟩

def step (f : Folder) (place : Place) (name : String) : Except FileError Place :=
  match place with
  | .outside => .ok .outside
  | .inside trail =>
    match f.entry? trail with
    | none => .error .notFound
    | some (.file _) => .error .notDirectory
    | some .directory =>
      if name = "" ∨ name = "." then .ok place
      else if name = ".." then
        .ok (if trail.isEmpty then .outside else .inside trail.dropLast)
      else .ok (.inside (trail ++ [name]))

/-- Where a path leads. Only its last name need not be there. -/
def place (f : Folder) (path : String) : Except FileError Place :=
  if path.isEmpty then .error .notFound
  else if path.startsWith "/" then .ok .outside
  else (path.splitOn "/").foldlM f.step (.inside [])

def isPresent (f : Folder) (path : String) : Bool :=
  match f.place path with
  | .ok (.inside trail) => (f.entry? trail).isSome
  | _ => false

def read (f : Folder) (path : String) : Except FileError String := do
  match ← f.place path with
  | .outside => throw .notFound
  | .inside trail =>
    match f.entry? trail with
    | none => throw .notFound
    | some .directory => throw .isDirectory
    | some (.file content) => return content

def enterDirectory (state : Folder × Place) (name : String) :
    Except FileError (Folder × Place) := do
  let (f, place) := state
  match ← f.step place name with
  | .outside => return (f, .outside)
  | .inside trail =>
    match f.entry? trail with
    | some .directory => return (f, .inside trail)
    | some (.file _) => throw .alreadyExists
    | none => return (f.put trail .directory, .inside trail)

def makeDirectories (f : Folder) (path : String) : Except FileError Folder :=
  if path.isEmpty || path.startsWith "/" then .ok f
  else ((path.splitOn "/").foldlM enterDirectory (f, .inside [])).map Prod.fst

def write (f : Folder) (path content : String) : Except FileError Folder := do
  match ← f.place path with
  | .outside => return f
  | .inside trail =>
    match f.entry? trail with
    | some .directory => throw .isDirectory
    | _ => return f.put trail (.file content)

def files (f : Folder) : List (String × String) :=
  f.entries.entries.filterMap fun (trail, entry) =>
    match entry with
    | .file content => some ("/".intercalate trail, content)
    | .directory => none

def change (run : Folder → Except FileError Folder) : StateM Folder (Except FileError Unit) :=
  fun f =>
    match run f with
    | .ok changed => (.ok (), changed)
    | .error e => (.error e, f)

def storage : Storage (StateM Folder) where
  isPresent path := return (← get).isPresent path
  read path := return (← get).read path
  makeDirectories path := change (·.makeDirectories path)
  write path content := change (·.write path content)

end Folder
end WireSchema
