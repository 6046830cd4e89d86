/-
AppSynthesis.Synthesis.Template — values and files for template steps.

The values of an install go to the first step that has an engine, helm or
ytt; within one step helm comes first. The files go to the first ytt.
Release names and namespaces go to every helm.

* `Applied` — what earlier steps have taken already.
* `injectHelm`, `injectYtt`, `injectTemplate`, `injectTemplates` — an
  engine, a step, and all steps with their share.
-/
import AppSynthesis.Synthesis.Options

namespace AppSynthesis

/-- What has been given to a step already. -/
structure Applied where
  /-- The values of the install. -/
  values : Bool := false
  /-- The files for ytt. -/
  yttPaths : Bool := false
  deriving DecidableEq, Repr

/-- A list that may be absent with more items at its end; without more
items it stays as it is. -/
def extend {α : Type} (existing : Option (List α)) (more : List α) : Option (List α) :=
  if more.isEmpty then existing else some (existing.getD [] ++ more)

/-- Secrets as sources of values. -/
def valuesSources (secrets : List Value) : List Template.ValuesSource :=
  secrets.map fun name => { secretRef := some ⟨name⟩ }

/-- Secrets as sources of files. -/
def fileSources (secrets : List Value) : List Fetch.InlineSource :=
  secrets.map fun name => { secretRef := some { name } }

/-- A value that replaces another unless it is null. -/
def Value.override (old new : Value) : Value := if new = .null then old else new

/-- A helm engine with its share. -/
def injectHelm (inputs : InstallInputs) (applied : Applied) (helm : Template.Helm) :
    Template.Helm × Applied :=
  let helm := { helm with
    name := helm.name.override inputs.helmName
    ns := helm.ns.override inputs.helmNamespace }
  if applied.values then (helm, applied)
  else
    ({ helm with
        valuesFrom := extend helm.valuesFrom
          (valuesSources (inputs.helmValues ++ inputs.declared)) },
      { applied with values := true })

/-- A ytt engine with secrets as further inline files. -/
def Template.Ytt.withFiles (ytt : Template.Ytt) (secrets : List Value) : Template.Ytt :=
  let inline := ytt.inline.getD {}
  { ytt with
    inline := some { inline with pathsFrom := extend inline.pathsFrom (fileSources secrets) } }

/-- A ytt engine with the files, unless there are none or an earlier one
has taken them. -/
def injectYttPaths (inputs : InstallInputs) (applied : Applied) (ytt : Template.Ytt) :
    Template.Ytt :=
  if applied.yttPaths || inputs.yttPaths.isEmpty then ytt else ytt.withFiles inputs.yttPaths

/-- A ytt engine with the declared values, unless an earlier engine has
taken them. -/
def injectYttValues (inputs : InstallInputs) (applied : Applied) (ytt : Template.Ytt) :
    Template.Ytt :=
  if applied.values then ytt
  else if inputs.overlays then ytt.withFiles inputs.declared
  else { ytt with valuesFrom := extend ytt.valuesFrom (valuesSources inputs.declared) }

/-- A ytt engine with its share. -/
def injectYtt (inputs : InstallInputs) (applied : Applied) (ytt : Template.Ytt) :
    Template.Ytt × Applied :=
  (injectYttValues inputs applied (injectYttPaths inputs applied ytt),
    { values := true, yttPaths := true })

/-- A template step with its share. -/
def injectTemplate (inputs : InstallInputs) (applied : Applied) (step : Template.Step) :
    Template.Step × Applied :=
  let (helmTemplate, applied) :=
    match step.helmTemplate with
    | none => (none, applied)
    | some helm =>
      let (helm, applied) := injectHelm inputs applied helm
      (some helm, applied)
  let (ytt, applied) :=
    match step.ytt with
    | none => (none, applied)
    | some ytt =>
      let (ytt, applied) := injectYtt inputs applied ytt
      (some ytt, applied)
  ({ step with helmTemplate, ytt }, applied)

/-- Template steps with their shares, after steps that have taken what
`applied` says. -/
def injectTemplates (inputs : InstallInputs) (applied : Applied) :
    List Template.Step → List Template.Step
  | [] => []
  | step :: rest =>
    let (step, applied) := injectTemplate inputs applied step
    step :: injectTemplates inputs applied rest

end AppSynthesis
