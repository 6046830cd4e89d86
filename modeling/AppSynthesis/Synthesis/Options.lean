/-
AppSynthesis.Synthesis.Options — what an App is built with besides its
install and package.

* `Options` — the sync period of installs that set none, and the scheme
  in which owners are looked up.
* `InstallInputs` — what the annotations and the declared values of an
  install contribute to the template steps, read once.
-/
import AppSynthesis.Annotations
import AppSynthesis.Ownership.Controller

namespace AppSynthesis

/-- The defaults of the synthesis. -/
structure Options where
  defaultSyncPeriod : Option Duration := some .tenMinutes
  scheme : Scheme := .standard
  deriving DecidableEq, Repr

/-- What an install contributes to template steps. Names of secrets come
from annotations and may be any value. -/
structure InstallInputs where
  /-- The release name of helm steps, null to leave it. -/
  helmName : Value
  /-- The release namespace of helm steps, null to leave it. -/
  helmNamespace : Value
  /-- Secrets with values for helm, before the declared ones. -/
  helmValues : List Value
  /-- Secrets with files for ytt. -/
  yttPaths : List Value
  /-- The secrets of the declared values. -/
  declared : List Value
  /-- Whether ytt takes the declared values as files. -/
  overlays : Bool
  deriving DecidableEq, Repr

/-- The secrets of the values that an install declares, in order. -/
def InstallSpec.valuesSecrets (spec : InstallSpec) : List Value :=
  (spec.values.getD []).filterMap fun v => v.secretRef.map fun r => .str r.name

/-- The contribution of an install with the given annotations. -/
def InstallInputs.of (annotations : Annotations) (spec : InstallSpec) : InstallInputs where
  helmName := (annotations.get? Annotations.helmName).getD .null
  helmNamespace := (annotations.get? Annotations.helmNamespace).getD .null
  helmValues := Annotations.ordered annotations Annotations.helmValuesSecret
  yttPaths := Annotations.ordered annotations Annotations.yttPathsSecret
  declared := spec.valuesSecrets
  overlays := (annotations.get? Annotations.valuesAreOverlays).isSome

end AppSynthesis
