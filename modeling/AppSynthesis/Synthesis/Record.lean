/-
AppSynthesis.Synthesis.Record — the synthesis from records of any type.

* `newAppOfRecords` — as `newApp` when the records are an App or none, an
  install and a package. Otherwise some member that is needed is missing;
  what can go wrong before it is needed goes wrong first. A record of
  another type that is marked as manually controlled is left as it is.
-/
import AppSynthesis.Synthesis.App

namespace AppSynthesis

/-- What an App has to take as its controller before an install that is
none is found out. -/
def claimFails (desired : Record) (owner : Record) (ns : Value) (options : Options) :
    Except Error Unit := do
  let g ← options.scheme.kindOfRecord (some owner)
  checkNamespaces ns ns
  match desired with
  | ⟨.app, app⟩ =>
    let ref := OwnerReference.controlling g (← Record.member (some owner) "name")
      (← Record.member (some owner) "uid")
    discard (App.claim { app with ns, name := ref.name } ref)
  | _ => .error (.fault .noMember)

/-- The App that an install asks for, from records of any type. -/
def newAppOfRecords (existing install package : Option Record) (options : Options) :
    Except Error Record :=
  match existing, install, package with
  | none, some ⟨.packageInstall, i⟩, some ⟨.package, p⟩ =>
    (fun app => ⟨.app, app⟩) <$> newApp none i p options
  | some ⟨.app, app⟩, some ⟨.packageInstall, i⟩, some ⟨.package, p⟩ =>
    (fun app => ⟨.app, app⟩) <$> newApp (some app) i p options
  | existing, install, package => do
    let desired := existing.getD ⟨.app, ({} : App)⟩
    let annotations ← Record.member (some desired) "annotations"
    if ← isManuallyControlled annotations then
      return desired
    let _ ← Record.member install "name"
    let ns ← Record.member install "namespace"
    let _ ← carriedEntries annotations
    let _ ← Record.member package "ref_name"
    let _ ← Record.member package "version"
    let _ ← Record.member install "spec"
    match install with
    | some owner => claimFails desired owner ns options
    | none => .error (.fault .noMember)
    .error (.fault .noMember)

end AppSynthesis
