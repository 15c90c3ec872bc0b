import StartEnd.Command.Run

/-!
# The command

Reads the file, runs the command and prints what it says.
-/

open StartEnd.Command

/-- Reads the bytes of a file, or tells why that is impossible. -/
def readBytes (path : String) : IO (Except ReadFailure ByteArray) := do
  try
    return .ok (← IO.FS.readBinFile path)
  catch problem =>
    match problem with
    | .noFileOrDirectory _ _ _ => return .error .notFound
    | .inappropriateType _ code _ =>
      return .error (if code = 20 then .notDirectory else .isDirectory)
    | other => return .error (.other (toString other))

/-- The entry point of the command. -/
def main (arguments : List String) : IO UInt32 := do
  let output ← run readBytes (Invocation.ofArguments arguments)
  IO.print output.stdout
  IO.eprint output.stderr
  return output.status
