/-
AppSynthesis.CommandLine.Request — what a command line asks for.

* `Request` — help, or an App to be made.
* `Stop` — why a command line asks for nothing: it is wrong, for the
  program or for one of its commands; or a value is at fault.
* `Request.ofArguments` — the request of a command line. What comes first
  is judged first, what is missing comes after that, and words that
  nothing takes come last.
-/
import AppSynthesis.Build
import AppSynthesis.CommandLine.Grammar
import AppSynthesis.Duration.Argument

namespace AppSynthesis.CommandLine

/-! ## Options and operands -/

/-- The name of the program. -/
def program : String := "packageinstall"

/-- The only command. -/
def buildCommand : String := "build"

/-- The name of the command in messages. -/
def buildProgram : String := program ++ " " ++ buildCommand

/-- How much is logged. -/
def Flag.logLevel : Flag := ⟨["--log-level"], true⟩

/-- The levels of logging. -/
def logLevels : List String := ["DEBUG", "INFO", "WARNING", "ERROR", "CRITICAL"]

/-- A file with packages. -/
def Flag.package : Flag := ⟨["--package", "-p"], true⟩

/-- The file with the App that exists. -/
def Flag.app : Flag := ⟨["--app"], true⟩

/-- The sync period of installs that set none. -/
def Flag.defaultSyncPeriod : Flag := ⟨["--default-sync-period"], true⟩

/-- The file that the App is written to. -/
def Flag.outputFile : Flag := ⟨["--output-file"], true⟩

/-- The options of the program; its operand is a command with all that
belongs to it. -/
def programGrammar : Grammar where
  flags := [.help, .logLevel]
  operandTakesRest := true

/-- The options of the command; its operand is the file with the
install. -/
def buildGrammar : Grammar where
  flags := [.help, .package, .app, .defaultSyncPeriod, .outputFile]
  operandTakesRest := false

/-! ## Requests -/

/-- What a command line asks for. -/
inductive Request where
  | help
  | build (r : BuildRequest)
  deriving DecidableEq, Repr

/-- Why a command line asks for nothing. -/
inductive Stop where
  | usage (program : String) (e : UsageError)
  | fault (e : Error)
  deriving DecidableEq, Repr

/-! ## The command -/

/-- The refusal of a word as a sync period. -/
def periodRefusal (reason : String) : Stop :=
  .usage buildProgram (.refused .defaultSyncPeriod reason)

/-- The sync period that a word denotes. A word that denotes none is a
mistake in the command line; other errors are not the user's. -/
def syncPeriodOf (word : String) : Except Stop Duration :=
  match parseDuration (.str word) with
  | .ok (some d) => .ok d
  | .ok none => .error (periodRefusal (InputError.malformedDuration word).message)
  | .error (.input cause) => .error (periodRefusal cause.message)
  | .error e => .error (.fault e)

/-- What has been read of a request for an App. The file with the install
is missing until it is read. -/
structure Draft where
  install : Option String := none
  request : BuildRequest := { install := "", packages := [] }

/-- The draft with one more thing taken; none when help is asked for. -/
def Draft.take (d : Draft) (t : Taken) : Except Stop (Option Draft) :=
  match t with
  | .operand words => .ok (some { d with install := words.head?.map Path.normal })
  | .flag f value =>
    let word := value.getD ""
    let r := d.request
    if f = .help then .ok none
    else if f = .package then
      .ok (some { d with request := { r with packages := r.packages ++ [Path.normal word] } })
    else if f = .app then
      .ok (some { d with request := { r with existing := some (Path.normal word) } })
    else if f = .outputFile then
      .ok (some { d with request := { r with output := word } })
    else
      (syncPeriodOf word).map fun period =>
        some { d with request := { r with defaultSyncPeriod := period } }

/-- The draft of everything taken; none as soon as help is asked for. -/
def Draft.takeAll (d : Draft) : List Taken → Except Stop (Option Draft)
  | [] => .ok (some d)
  | t :: rest => do
    match ← d.take t with
    | none => return none
    | some d => d.takeAll rest

/-- The arguments that a draft lacks. -/
def Draft.missing (d : Draft) : List String :=
  (if d.install.isNone then ["package_install"] else [])
    ++ (if d.request.packages.isEmpty then [Flag.package.title] else [])

/-- The request of the words after the command, and the words among them
that nothing takes; no request when help is asked for. -/
def buildOfWords (words : List String) : Except Stop (Option (BuildRequest × List String)) := do
  let reading := buildGrammar.read words
  match ← ({} : Draft).takeAll reading.taken with
  | none => return none
  | some d =>
    match reading.failure, d.install with
    | some e, _ => throw (.usage buildProgram e)
    | none, some install =>
      if d.missing.isEmpty then return some ({ d.request with install }, reading.unused)
      else throw (.usage buildProgram (.missing d.missing))
    | none, none => throw (.usage buildProgram (.missing d.missing))

/-! ## The program -/

/-- What remains to be done when something is taken from the command line
of the program: an answer, or nothing yet. -/
def programTake (t : Taken) : Except Stop (Option (Request × List String)) :=
  match t with
  | .flag f value =>
    if f = .help then .ok (some (.help, []))
    else
      let word := value.getD ""
      if logLevels.contains word then .ok none
      else .error (.usage program (.notAmong Flag.logLevel.title word logLevels))
  | .operand [] => .ok none
  | .operand (command :: words) =>
    if command ≠ buildCommand then
      .error (.usage program (.notAmong "command" command [buildCommand]))
    else
      (buildOfWords words).map fun answer =>
        match answer with
        | none => some (.help, [])
        | some (r, unused) => some (.build r, unused)

/-- The first answer among the things taken from a command line. -/
def programTakeAll : List Taken → Except Stop (Option (Request × List String))
  | [] => .ok none
  | t :: rest => do
    match ← programTake t with
    | some answer => return some answer
    | none => programTakeAll rest

/-- The request of a command line. -/
def Request.ofArguments (arguments : List String) : Except Stop Request := do
  let reading := programGrammar.read arguments
  match ← programTakeAll reading.taken with
  | none =>
    match reading.failure with
    | some e => throw (.usage program e)
    | none => throw (.usage program (.missing ["command"]))
  | some (.help, _) => return .help
  | some (request, unused) =>
    match reading.unused ++ unused with
    | [] => return request
    | words => throw (.usage program (.unused words))

end AppSynthesis.CommandLine
