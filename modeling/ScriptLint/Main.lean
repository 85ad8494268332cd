import ScriptLint.CommandLine.Run

/-!
# The command line

Reads the file that the arguments name, runs the checker on it, and prints the outcome.
-/

namespace ScriptLint.CommandLine

/-- The failure that an error of the file system stands for. -/
def readFailure : IO.Error → ReadFailure
  | .noFileOrDirectory .. => .missing
  | .inappropriateType _ code _ => if code = 20 then .notDirectory else .isDirectory
  | error => .other (toString error)

/-- The bytes of a file, or the reason why it cannot be read. -/
def readFile (path : String) : IO (Except ReadFailure ByteArray) := do
  match ← (IO.FS.readBinFile path).toBaseIO with
  | .ok bytes => return .ok bytes
  | .error error => return .error (readFailure error)

end ScriptLint.CommandLine

open ScriptLint.CommandLine in
/-- Runs the checker on the file that the arguments name. -/
def main (arguments : List String) : IO UInt32 := do
  let content ←
    match request? arguments with
    | some (.check options) => readFile options.file
    | _ => pure (.error .missing)
  let outcome := run (fun _ => content) arguments
  IO.print outcome.stdout
  IO.eprint outcome.stderr
  return outcome.exit.toUInt32
