/-
AppSynthesis.Synthesis.App — the App that an install asks for.

* `newApp` — built from the App that exists, the install, the package
  selected for it and the options. An App under manual control is left as
  it is. Otherwise its name, namespace, specification and controller come
  from the install and the package, its package annotations are set, and
  everything else is kept.
-/
import AppSynthesis.Synthesis.Fetch
import AppSynthesis.Synthesis.Template

namespace AppSynthesis

/-! ## The existing App -/

/-- Whether `part` occurs in `cs`. -/
def Text.occursIn (part : List Char) : List Char → Bool
  | [] => part.isEmpty
  | c :: cs => part.isPrefixOf (c :: cs) || occursIn part cs

/-- Whether annotations hold the mark of manual control. A list holds it
as an item, text as a part; other values cannot be searched. -/
def isManuallyControlled (annotations : Value) : Except Error Bool :=
  if annotations.isTrue then
    match annotations with
    | .map _ entries => .ok (Entries.hasKey entries Annotations.manuallyControlled)
    | .list _ items =>
      .ok (items.any fun v => v.same (.str Annotations.manuallyControlled))
    | .str s => .ok (Text.occursIn Annotations.manuallyControlled.toList s.toList)
    | _ => .error (.fault .wrongKind)
  else .ok false

/-- The entries of annotations that are carried over. -/
def carriedEntries (annotations : Value) : Except Error Entries :=
  if annotations.isTrue then
    match annotations with
    | .map _ entries => .ok entries
    | _ => .error (.fault .wrongKind)
  else .ok []

/-- Annotations with the package recorded. -/
def recordPackage (entries : Entries) (package : Package) : Value :=
  .map none <|
    Entries.insert (Entries.insert entries (.str Annotations.packageRefName) package.refName)
      (.str Annotations.packageVersion) (.str package.version)

/-! ## The specification -/

/-- The template of a package under the controls of an install. -/
def controlledSpec (template : AppSpec) (install : InstallSpec) (options : Options) : AppSpec :=
  { template with
    serviceAccountName := install.serviceAccountName
    syncPeriod := install.syncPeriod <|> options.defaultSyncPeriod
    noopDelete := some install.noopDelete
    paused := some install.paused
    canceled := some install.canceled
    cluster := install.cluster
    defaultNamespace := install.defaultNamespace }

/-- The specification of the App: the template under the controls of the
install, with its secrets and values. -/
def desiredSpec (install : PackageInstall) (annotations : Annotations) (package : Package)
    (options : Options) : AppSpec :=
  let spec := controlledSpec package.template install.spec options
  let inputs := InstallInputs.of annotations install.spec
  { spec with
    fetch := spec.fetch.map (injectFetchSecrets annotations)
    template := spec.template.map (injectTemplates inputs {}) }

/-! ## The App -/

/-- The App that an install asks for. -/
def newApp (existing : Option App) (install : PackageInstall) (package : Package)
    (options : Options) : Except Error App := do
  let app := existing.getD {}
  if ← isManuallyControlled app.annotations then
    return app
  let entries ← carriedEntries app.annotations
  let app := { app with
    name := install.name
    ns := install.ns
    annotations := recordPackage entries package }
  let ownerReferences ← install.owner.controlOf app options.scheme
  let annotations ← Annotations.ofValue install.annotations
  return { app with
    ownerReferences := some ownerReferences
    spec := desiredSpec install annotations package options }

end AppSynthesis
