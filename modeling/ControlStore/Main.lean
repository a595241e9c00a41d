import ControlStore.CommandLine

set_option autoImplicit false

namespace ControlStore.CommandLine

/-- The bytes of a file, or why they cannot be had. -/
def readFile (path : String) : IO (Except ReadFault ByteArray) := do
  try
    return .ok (← IO.FS.readBinFile path)
  catch
    | .noFileOrDirectory .. => return .error .missing
    | .inappropriateType .. => return .error .directory
    | fault => return .error (.other (toString fault))

end ControlStore.CommandLine

open ControlStore in
/-- Runs the command line: reads the file it needs, shows the outcome and returns its exit code. -/
def main (arguments : List String) : IO UInt32 := do
  let contents ← match CommandLine.neededFile? arguments with
    | some path => CommandLine.readFile path
    | none => pure (.error .missing)
  let outcome := CommandLine.run (fun _ => contents) arguments
  IO.eprint outcome.errors
  IO.print outcome.output
  return outcome.exitCode
