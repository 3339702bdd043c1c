import PredictiveParsing.CommandLine.Execute

/-!
# The program

The command line program: arguments, files and messages of a process.
-/

namespace PredictiveParsing

/-- What a failure of the system to reach a file means. -/
def FileFault.ofError : IO.Error → FileFault
  | .noFileOrDirectory .. => .missing
  | .inappropriateType .. => .isDirectory
  | e => .other (toString e)

/-- The access to the files of the system. -/
def systemFiles : FileAccess IO where
  read path := do
    try
      match String.fromUTF8? (← IO.FS.readBinFile path) with
      | some text => return .ok text
      | none => return .error .notText
    catch e => return .error (.ofError e)
  write path text := do
    try
      IO.FS.writeFile path text
      return .ok ()
    catch e => return .error (.ofError e)

/-- Runs the command line program. -/
def runProgram (arguments : List String) : IO UInt32 := do
  let report ← (Request.ofArguments arguments).answer systemFiles (← IO.getEnv "RUST_LOG")
  IO.eprint report.stderr
  IO.print report.stdout
  return report.code.toUInt32

end PredictiveParsing

/-- **The program.** -/
def main (arguments : List String) : IO UInt32 := PredictiveParsing.runProgram arguments
