import WireSchema.Graph
import WireSchema.Text.Pascal

/-! The names of operations and of shared definitions. -/
namespace WireSchema.Naming

def upperFirst (name : String) : String := String.ofList (Text.capitalize name.toList)

/-- A name that has only ASCII letters and digits is kept apart from its first letter; any other is
put into Pascal case. -/
def pascalIdentifier (name : String) : String :=
  if !name.isEmpty && name.toList.all Char.isAlphanum then upperFirst name
  else
    let pascal := Text.pascal name.toList
    if pascal.isEmpty then "Unnamed" else String.ofList pascal

def operationId (container name : String) : String :=
  if container.isEmpty then upperFirst name else container ++ "_" ++ upperFirst name

/-- The base with the first number from `i` on that makes it unused, `fuel` numbers at most. -/
def firstFree (base : String) (used : List String) : Nat → Nat → String
  | 0, i => base ++ toString i
  | fuel + 1, i =>
    if used.contains (base ++ toString i) then firstFree base used fuel (i + 1)
    else base ++ toString i

/-- A name that is not used yet, and the used names with it: the base, or the base with the least
number from 2 on. Numbered bases are distinct, so one of as many as there are used names is free. -/
def unique (base : String) (used : List String) : String × List String :=
  let name := if used.contains base then firstFree base used used.length 2 else base
  (name, name :: used)

def definitionBaseFrom (graph : TypeGraph) : Nat → TypeId → String
  | 0, id => pascalIdentifier (graph.modelName id)
  | depth + 1, id =>
    let argument : TypeRef → String
      | .literal _ => ""
      | .named name =>
        match graph.resolveName name with
        | .ok (.declared arg (.model _)) => definitionBaseFrom graph depth arg
        | _ => pascalIdentifier name
    let arguments := match graph.model? id with
      | some model => model.templateArgs.map argument
      | none => []
    String.join (pascalIdentifier (graph.modelName id) :: arguments)

/-- The base of a shared definition's name: `Page` of `Widget` gives `PageWidget`. Without cycles
among template arguments no chain of them is longer than the list of declarations. -/
def definitionBase (graph : TypeGraph) (id : TypeId) : String :=
  definitionBaseFrom graph (graph.types.size + 1) id

end WireSchema.Naming
