import WireSchema.Error

/-! The commands of the command line and the arguments that spell them. -/
namespace WireSchema

inductive Command where
  /-- Writes what the settings ask for. -/
  | emit (inputs : List String) (output : Option String)
  /-- Converts every operation of a type graph and writes nothing. -/
  | validate (input : String)
  | inspect (input : String) (format : TextFormat)
  /-- Writes settings to start with. -/
  | init (force : Bool)
  | version
  deriving DecidableEq, Repr

namespace Command

structure OptionSpec where
  long : String
  short : Option Char := none
  takesValue : Bool := true

/-- An option that was given, and its value, which is empty if it takes none. -/
abbrev Occurrence := String × String

def attached? (name : String) (value : List Char) : Option Occurrence :=
  if value.isEmpty then none else some (name, String.ofList value)

def isValue (arg : String) : Bool := !arg.isEmpty && (arg == "-" || !arg.startsWith "-")

/-- What one argument says. -/
inductive Reading where
  | complete (occurrence : Occurrence)
  /-- The value is the next argument. -/
  | pending (name : String)

def readLong? (specs : List OptionSpec) (text : List Char) : Option Reading := do
  let name := String.ofList (text.takeWhile (· ≠ '='))
  let spec ← specs.find? (·.long == name)
  match text.dropWhile (· ≠ '=') with
  | [] => return if spec.takesValue then .pending name else .complete (name, "")
  | _ :: value => if spec.takesValue then (attached? name value).map .complete else none

/-- Reads `-n`, `-nvalue` or `-n=value`. Only options with a value have a letter. -/
def readShort? (specs : List OptionSpec) : List Char → Option Reading
  | [] => none
  | letter :: text => do
    let spec ← specs.find? (·.short == some letter)
    match text with
    | [] => return .pending spec.long
    | '=' :: value => (attached? spec.long value).map .complete
    | value => (attached? spec.long value).map .complete

def read? (specs : List OptionSpec) (arg : String) : Option Reading :=
  match arg.toList with
  | '-' :: '-' :: text => readLong? specs text
  | '-' :: text => readShort? specs text
  | _ => none

/-- The options among arguments. Nothing but options is allowed, and nothing behind `--`. -/
def occurrences? (specs : List OptionSpec) : List String → Option (List Occurrence)
  | [] => some []
  | ["--"] => some []
  | [arg] =>
    match read? specs arg with
    | some (.complete occurrence) => some [occurrence]
    | _ => none
  | arg :: next :: rest =>
    match read? specs arg with
    | none => none
    | some (.complete occurrence) => (occurrences? specs (next :: rest)).map (occurrence :: ·)
    | some (.pending name) =>
      if isValue next then (occurrences? specs rest).map ((name, next) :: ·) else none

def valuesOf (occurrences : List Occurrence) (name : String) : List String :=
  (occurrences.filter (·.1 == name)).map (·.2)

def atMostOnce? (occurrences : List Occurrence) (name : String) : Option (Option String) :=
  match valuesOf occurrences name with
  | [] => some none
  | [value] => some (some value)
  | _ => none

def once? (occurrences : List Occurrence) (name : String) : Option String :=
  (atMostOnce? occurrences name).join

def inputOption : OptionSpec := { long := "input", short := some 'i' }
def outputOption : OptionSpec := { long := "output", short := some 'o' }
def formatOption : OptionSpec := { long := "format" }
def forceOption : OptionSpec := { long := "force", takesValue := false }

def formatNamed? : String → Option TextFormat
  | "yaml" => some .yaml
  | "json" => some .json
  | _ => none

def parse? : List String → Option Command
  | [] => none
  | "--version" :: _ => some .version
  | "emit" :: args => do
    let given ← occurrences? [inputOption, outputOption] args
    return .emit (valuesOf given "input") (← atMostOnce? given "output")
  | "validate" :: args => do
    let given ← occurrences? [inputOption] args
    return .validate (← once? given "input")
  | "inspect" :: args => do
    let given ← occurrences? [inputOption, formatOption] args
    let format ← (← atMostOnce? given "format").elim (some .yaml) formatNamed?
    return .inspect (← once? given "input") format
  | "init" :: args => do
    let given ← occurrences? [forceOption] args
    return .init (← atMostOnce? given "force").isSome
  | arg :: _ => if arg.startsWith "-V" then some .version else none

def usage : String :=
  "Usage: aaz emit [-i FILE]... [-o DIRECTORY]\n" ++
  "       aaz validate -i FILE\n" ++
  "       aaz inspect -i FILE [--format yaml|json]\n" ++
  "       aaz init [--force]\n" ++
  "       aaz --version\n"

end Command
end WireSchema
