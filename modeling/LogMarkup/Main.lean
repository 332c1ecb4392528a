import LogMarkup.Command

/-!
# `LogMarkup.Main` — the program

The program reads the files that its arguments name, and prints what `Command.answer` says.
-/

namespace LogMarkup

/-- The reason for a failure of the system to read a file. -/
def ReadFailure.ofError : IO.Error → ReadFailure
  | .noFileOrDirectory .. => .missing
  | .inappropriateType .. => .directory
  | error => .other error.toString

/-- The bytes of a file. -/
def readBytes (path : String) : IO (Except ReadFailure Bytes) := do
  try
    return .ok (← IO.FS.readBinFile path).data.toList
  catch error =>
    return .error (ReadFailure.ofError error)

/-- The paths that arguments ask to read. -/
def pathsOf (args : List String) : List String :=
  match Command.ofArgs args with
  | .error _ => []
  | .ok command => command.paths

/-- The files at some paths. -/
def filesAt (paths : List String) : IO Files := do
  let contents ← paths.mapM fun path => do return (path, ← readBytes path)
  return fun path => ((contents.find? (·.1 == path)).map (·.2)).getD (.error .missing)

end LogMarkup

open LogMarkup in
/-- Print what the arguments ask for, and end with its code. -/
def main (args : List String) : IO UInt32 := do
  let outcome := Command.answer (← filesAt (pathsOf args)) args
  IO.print outcome.output
  IO.eprint outcome.errors
  return outcome.code
