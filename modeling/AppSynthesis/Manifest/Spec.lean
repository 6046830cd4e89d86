/-
AppSynthesis.Manifest.Spec — the specifications of Apps and of installs.

* `AppSpec` — how an App is fetched, transformed and deployed, with its
  controls. It is also the template that a package carries.
* `InstallSpec` — the package that an install asks for, the values it
  declares, and the controls it sets on its App.
-/
import AppSynthesis.Manifest.Template

namespace AppSynthesis

/-- The cluster that an App deploys into, when it is not the local one. -/
structure Cluster where
  ns : Option String := none
  kubeconfigSecretRef : Option KubeconfigRef := none
  deriving DecidableEq, Repr, Inhabited

def Cluster.schema : Schema Cluster where
  name := "AppCluster"
  Row := Option String × Option KubeconfigRef × Unit
  fields := .optional "namespace" "namespace" .text <|
    .optional "kubeconfig_secret_ref" "kubeconfigSecretRef" KubeconfigRef.schema.codec .done
  build := fun (ns, kubeconfigSecretRef, ()) => { ns, kubeconfigSecretRef }
  row x := (x.ns, x.kubeconfigSecretRef, ())

/-- The specification of an App. Deploy steps are carried as they are. -/
structure AppSpec where
  fetch : Option (List Fetch.Step) := none
  template : Option (List Template.Step) := none
  deploy : Option (List (TextMap Value)) := none
  serviceAccountName : Option String := none
  syncPeriod : Option Duration := none
  noopDelete : Option Bool := none
  paused : Option Bool := none
  canceled : Option Bool := none
  cluster : Option Cluster := none
  defaultNamespace : Option String := none
  deriving DecidableEq, Repr, Inhabited

def AppSpec.schema : Schema AppSpec where
  name := "AppSpec"
  Row := Option (List Fetch.Step) × Option (List Template.Step)
    × Option (List (TextMap Value)) × Option String × Option Duration × Option Bool
    × Option Bool × Option Bool × Option Cluster × Option String × Unit
  fields := .optional "fetch" "fetch" (.list Fetch.Step.schema.codec) <|
    .optional "template" "template" (.list Template.Step.schema.codec) <|
    .optional "deploy" "deploy" (.list .valueMap) <|
    .optional "service_account_name" "serviceAccountName" .text <|
    .optional "sync_period" "syncPeriod" .duration <|
    .optional "noop_delete" "noopDelete" .flag <|
    .optional "paused" "paused" .flag <|
    .optional "canceled" "canceled" .flag <|
    .optional "cluster" "cluster" Cluster.schema.codec <|
    .optional "default_namespace" "defaultNamespace" .text .done
  build := fun (fetch, template, deploy, serviceAccountName, syncPeriod, noopDelete, paused,
      canceled, cluster, defaultNamespace, ()) =>
    { fetch, template, deploy, serviceAccountName, syncPeriod, noopDelete, paused, canceled,
      cluster, defaultNamespace }
  row x := (x.fetch, x.template, x.deploy, x.serviceAccountName, x.syncPeriod, x.noopDelete,
    x.paused, x.canceled, x.cluster, x.defaultNamespace, ())

/-- What selects a version of a package. -/
structure VersionSelection where
  constraints : Option String := none
  prereleases : Option (TextMap Value) := none
  deriving DecidableEq, Repr, Inhabited

def VersionSelection.schema : Schema VersionSelection where
  name := "VersionSelection"
  Row := Option String × Option (TextMap Value) × Unit
  fields := .optional "constraints" "constraints" .text <|
    .optional "prereleases" "prereleases" .valueMap .done
  build := fun (constraints, prereleases, ()) => { constraints, prereleases }
  row x := (x.constraints, x.prereleases, ())

/-- The package that an install asks for. -/
structure PackageRef where
  refName : String
  versionSelection : Option VersionSelection := none
  deriving DecidableEq, Repr, Inhabited

def PackageRef.schema : Schema PackageRef where
  name := "PackageRef"
  Row := String × Option VersionSelection × Unit
  fields := .required "ref_name" "refName" .text <|
    .optional "version_selection" "versionSelection" VersionSelection.schema.codec .done
  build := fun (refName, versionSelection, ()) => { refName, versionSelection }
  row x := (x.refName, x.versionSelection, ())

/-- One declared source of values. -/
structure InstallValues where
  secretRef : Option InstallValuesRef := none
  deriving DecidableEq, Repr, Inhabited

def InstallValues.schema : Schema InstallValues where
  name := "PackageInstallValues"
  Row := Option InstallValuesRef × Unit
  fields := .optional "secret_ref" "secretRef" InstallValuesRef.schema.codec .done
  build := fun (secretRef, ()) => { secretRef }
  row x := (x.secretRef, ())

/-- The specification of an install. -/
structure InstallSpec where
  serviceAccountName : Option String := none
  syncPeriod : Option Duration := none
  packageRef : Option PackageRef := none
  values : Option (List InstallValues) := none
  paused : Bool := false
  canceled : Bool := false
  noopDelete : Bool := false
  cluster : Option Cluster := none
  defaultNamespace : Option String := none
  deriving DecidableEq, Repr, Inhabited

def InstallSpec.schema : Schema InstallSpec where
  name := "PackageInstallSpec"
  Row := Option String × Option Duration × Option PackageRef × Option (List InstallValues)
    × Bool × Bool × Bool × Option Cluster × Option String × Unit
  fields := .optional "service_account_name" "serviceAccountName" .text <|
    .optional "sync_period" "syncPeriod" .duration <|
    .optional "package_ref" "packageRef" PackageRef.schema.codec <|
    .optional "values" "values" (.list InstallValues.schema.codec) <|
    .defaulted "paused" "paused" .flag false <|
    .defaulted "canceled" "canceled" .flag false <|
    .defaulted "noop_delete" "noopDelete" .flag false <|
    .optional "cluster" "cluster" Cluster.schema.codec <|
    .optional "default_namespace" "defaultNamespace" .text .done
  build := fun (serviceAccountName, syncPeriod, packageRef, values, paused, canceled,
      noopDelete, cluster, defaultNamespace, ()) =>
    { serviceAccountName, syncPeriod, packageRef, values, paused, canceled, noopDelete,
      cluster, defaultNamespace }
  row x := (x.serviceAccountName, x.syncPeriod, x.packageRef, x.values, x.paused, x.canceled,
    x.noopDelete, x.cluster, x.defaultNamespace, ())

end AppSynthesis
