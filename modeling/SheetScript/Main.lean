import SheetScript.CommandLine.Program

/-!
# The executable

Reads the arguments, the startup file and standard input, and prints the report.
-/

namespace SheetScript.CommandLine

/-- What a path leads to on disk. -/
def readStatus (path : String) : IO FileStatus := do
  try
    return .file (← IO.FS.readBinFile path)
  catch
    | .noFileOrDirectory .. => return .missing
    | _ => return .directory

/-- The paths that a call may read its startup file from. -/
def startupCandidates (invocation : Invocation) (home : String) : List String :=
  match invocation with
  | .run options => options.startupFile.toList ++ [home ++ "/" ++ defaultStartupFile]
  | _ => []

/-- Standard input, if the call reads commands from it. -/
def readInput : Invocation → IO ByteArray
  | .run { script := none, .. } => do (← IO.getStdin).readBinToEnd
  | _ => return .empty

end SheetScript.CommandLine

open SheetScript.CommandLine

/-- Runs the program. A script that does not end gives no report. -/
def main (args : List String) : IO UInt32 := do
  let invocation := parse args
  let home := (← IO.getEnv "HOME").getD ""
  let files ← (startupCandidates invocation home).mapM fun path =>
    return (path, ← readStatus path)
  let input ← readInput invocation
  match program args home (fun path => (files.lookup path).getD .missing) input with
  | none => return 1
  | some report =>
    (← IO.getStdout).putStr report.printed.stdout
    (← IO.getStderr).putStr report.printed.stderr
    return report.exitCode.toUInt32
