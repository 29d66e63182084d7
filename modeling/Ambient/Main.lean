import Ambient.Command.Program

namespace Ambient

/-- The reason for a failure, by its number. -/
def FileError.ofFailure (e : IO.Error) : FileError :=
  match e with
  | .noFileOrDirectory .. => .notFound
  | .alreadyExists .. => .alreadyExists
  | .inappropriateType _ code _ => ofCode code
  | e => .other (toString e)
where
  ofCode (code : UInt32) : FileError :=
    if code = 20 then .notDirectory
    else if code = 21 then .isDirectory
    else .other (toString e)

/-- Runs an action and tells why it failed. -/
def attempt {α : Type} (action : IO α) : IO (Except FileError α) := do
  try
    return .ok (← action)
  catch e => return .error (FileError.ofFailure e)

/-- The files of the machine. -/
def machineFiles : FileSystem IO where
  read path := do
    match ← attempt (IO.FS.readBinFile path) with
    | .error e => return .error e
    | .ok bytes =>
      match String.fromUTF8? bytes with
      | some text => return .ok text
      | none => return .error .notText
  createDirectories path := attempt (IO.FS.createDirAll path)
  write path text := attempt (IO.FS.writeFile path text)

end Ambient

def main (arguments : List String) : IO UInt32 := do
  let exit ← Ambient.program Ambient.machineFiles arguments
  (← IO.getStdout).putStr exit.output
  (← IO.getStderr).putStr exit.errors
  return exit.code
