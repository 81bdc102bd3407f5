import WireSchema.Command.Run

/-! The program: its arguments are a command, and its files are those of the system. -/
namespace WireSchema

def tryIO {α : Type} (action : IO α) : IO (Except FileError α) := do
  try return .ok (← action) catch e => return .error (.other (toString e))

def isPresentIO (path : String) : IO Bool := do
  match ← (IO.FS.readFile path).toBaseIO with
  | .error (.noFileOrDirectory ..) => return false
  | _ => return true

def systemStorage : Storage IO where
  isPresent := isPresentIO
  read path := tryIO (IO.FS.readFile path)
  makeDirectories path := tryIO (if path.isEmpty then pure () else IO.FS.createDirAll path)
  write path content := tryIO (IO.FS.writeFile path content)

end WireSchema

def main (args : List String) : IO UInt32 := do
  let outcome ← WireSchema.Command.run WireSchema.systemStorage args
  IO.print outcome.out
  IO.eprint outcome.err
  return outcome.code.toUInt32
