/-
AppSynthesis.Main — the program.

The command line is read and the App is made by total functions; here the
files that a request names are read beforehand, and the document and the
messages are written afterwards.
-/
import AppSynthesis.CommandLine.Outcome

namespace AppSynthesis.CommandLine

/-- The file at a path, unless it cannot be read. -/
def fileAt? (path : String) : IO (Option (String × String)) := do
  try
    return some (path, ← IO.FS.readFile path)
  catch _ =>
    return none

/-- Makes the App that a request asks for and writes its document. -/
def perform (r : BuildRequest) : IO UInt32 := do
  let files := (← r.paths.mapM fileAt?).filterMap id
  let read (path : String) : Except Fault String :=
    match files.find? fun e => e.1 = path with
    | some e => .ok e.2
    | none => .error .noFile
  match r.document read with
  | .ok text =>
    IO.FS.writeFile r.output text
    return 0
  | .error e =>
    if e.isReported then
      IO.eprintln (errorMessage e)
      return 1
    else throw (IO.userError (e.message?.getD "unexpected document"))

end AppSynthesis.CommandLine

open AppSynthesis.CommandLine in
/-- Runs the program with its arguments. -/
def main (arguments : List String) : IO UInt32 := do
  match Request.ofArguments arguments with
  | .ok .help =>
    IO.println ("usage: " ++ buildProgram ++ " package_install --package FILE")
    return 0
  | .ok (.build r) => perform r
  | .error (.usage program e) =>
    IO.eprintln (usageMessage program e)
    return 2
  | .error (.fault _) => throw (IO.userError "argument out of range")
