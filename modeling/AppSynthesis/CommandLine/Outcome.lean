/-
AppSynthesis.CommandLine.Outcome — running a command line.

* `Outcome` — the exit code, what is printed, and the files afterwards.
* `run` — the outcome of a command line in a folder. Errors that operators
  are told about end it with a message and exit code one, mistakes in the
  command line with exit code two; any other error is no outcome.
-/
import AppSynthesis.CommandLine.Request

namespace AppSynthesis.CommandLine

/-- What a command line leads to. -/
structure Outcome where
  exitCode : Nat := 0
  output : String := ""
  messages : String := ""
  folder : Folder
  deriving DecidableEq, Repr

/-- The message about a mistake in a command line. -/
def usageMessage (program : String) (e : UsageError) : String :=
  program ++ ": error: " ++ e.message

/-- The message about an error; errors without a wording have none. -/
def errorMessage (e : Error) : String := program ++ " error:  " ++ e.message?.getD ""

/-- Puts a text where a request wants it. -/
def deliver (folder : Folder) (path text : String) : Except Error Outcome :=
  if path = Path.standardOutput then .ok { output := text, folder }
  else (folder.write path text).mapError Error.fault |>.map fun folder => { folder }

/-- The outcome of a request. -/
def Request.run (folder : Folder) : Request → Except Error Outcome
  | .help => .ok { folder }
  | .build r =>
    match r.document folder.read with
    | .ok text => deliver folder r.output text
    | .error e =>
      if e.isReported then .ok { exitCode := 1, messages := errorMessage e, folder }
      else .error e

/-- The outcome of a command line. -/
def run (arguments : List String) (folder : Folder) : Except Error Outcome :=
  match Request.ofArguments arguments with
  | .ok request => request.run folder
  | .error (.usage program e) =>
    .ok { exitCode := 2, messages := usageMessage program e, folder }
  | .error (.fault e) => .error e

end AppSynthesis.CommandLine
