/-
AppSynthesis.Controller — keeping the Apps of a store up to date.

* `ControllerConfig` — options of the synthesis, how often a conflicting
  write is repeated, and the global namespace of packages.
* `reconcile` — writes the App that an install asks for. Install and
  package are read once; the App is read again before each attempt.
* `onAdded` — what a controller does when something was added: an install
  is reconciled, and so is every install of a package. Errors that
  operators are told about are logged; other errors end the call.
-/
import AppSynthesis.Resolution
import AppSynthesis.Store.Live
import AppSynthesis.Synthesis.App

namespace AppSynthesis

/-- The configuration of a controller. -/
structure ControllerConfig where
  options : Options := {}
  /-- How often an App is written again after a conflict. -/
  maxConflictRetries : Int := 3
  /-- The namespace of the packages that every namespace sees. -/
  globalNamespace : Option String := some "kapp-controller-packaging-global"
  deriving DecidableEq, Repr

/-! ## Reconciling -/

/-- The identity of the App of an install. -/
def PackageInstall.appId (install : PackageInstall) : ResourceId :=
  ⟨Kind.app.name, install.ns, install.name⟩

/-- Whether an error reports a conflicting write. -/
def Error.isConflict : Error → Bool
  | .conflict _ _ _ => true
  | _ => false

/-- Makes the App that an install asks for from the stored one and writes
it; a conflict is left to `onConflict`. -/
def attemptWrite (config : ControllerConfig) (install : PackageInstall) (package : Package)
    (onConflict : Error → Script App) : Script App :=
  .get install.appId .app fun existing =>
    match existing with
    | .error e => .fail e
    | .ok existing =>
      match newApp (existing.bind Resource.app?) install package config.options with
      | .error e => .fail e
      | .ok desired =>
        .add (.app desired) fun answer =>
          match answer with
          | .ok receipt => .done (((receipt.object (.app desired)).app?).getD desired)
          | .error e => if e.isConflict then onConflict e else .fail e

/-- Writes the App that an install asks for, and again after a conflict as
often as `retries` allows. -/
def writeApp (config : ControllerConfig) (install : PackageInstall) (package : Package) :
    (retries : Nat) → Script App
  | 0 => attemptWrite config install package .fail
  | retries + 1 =>
    attemptWrite config install package fun _ => writeApp config install package retries

/-- The install under an identity, which has to be there. -/
def readInstall (id : ResourceId) : Script PackageInstall :=
  .get id .packageInstall fun answer =>
    match answer with
    | .error e => .fail e
    | .ok (some (.packageInstall install)) => .done install
    | .ok _ => .fail (.noInstall id)

/-- The package that an install means, among those in the store. -/
def readPackage (config : ControllerConfig) (install : PackageInstall) : Script Package :=
  .list (some Kind.package.name) fun objects =>
    .ofExcept (resolvePackage (objects.filterMap Resource.package?) install
      config.globalNamespace)

/-- What is logged about an install that was reconciled. -/
def reconciledText (id : ResourceId) (package : Package) : String :=
  "Reconciled " ++ id.text ++ " with Package " ++ package.namespacedName

/-- Writes the App that the install under an identity asks for. -/
def reconcile (config : ControllerConfig) (id : ResourceId) : Script App := do
  let install ← readInstall id
  let package ← readPackage config install
  let app ← writeApp config install package config.maxConflictRetries.toNat
  .log .info (reconciledText id package) (.done app)

/-! ## Listening -/

/-- Reconciles an install; an error that operators are told about is
logged. -/
def tryReconcile (config : ControllerConfig) (id : ResourceId) : Script Unit :=
  ((reconcile config id).bind fun _ => .done ()).recover fun e =>
    if e.isReported then
      .log .error
        ("Failed to reconcile " ++ id.text ++ ": " ++ e.message?.getD "") (.done ())
    else .fail e

/-- Whether an install asks for a package of this name; one that names no
package asks for those without a name. -/
def PackageInstall.asksFor (install : PackageInstall) (package : Package) : Bool :=
  match install.refName? with
  | none => package.refName.same .null
  | some refName => package.refName.same (.str refName)

/-- What a controller does about a resource that was added. -/
def onAdded (config : ControllerConfig) (id : ResourceId) (obj : Resource) : Script Unit :=
  match obj with
  | .app _ => .done ()
  | .packageInstall _ => tryReconcile config id
  | .package package =>
    .list (some Kind.packageInstall.name) fun objects =>
      .forEach ((objects.filterMap Resource.packageInstall?).filter (·.asksFor package))
        fun install => tryReconcile config (Resource.packageInstall install).id

/-- Starts a controller as the given listener; it is shown what is there. -/
def startController (listener : ListenerId) : Script Unit :=
  .listen .added listener true .ofExcept

/-- Stops a controller. -/
def stopController (listener : ListenerId) : Script Unit :=
  .unlisten .added listener (.done ())

end AppSynthesis
