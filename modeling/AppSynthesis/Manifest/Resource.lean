/-
AppSynthesis.Manifest.Resource — the resources: Apps, installs and
packages.

What a document gives as name, namespace, identity, version, annotations,
labels and status is kept as it is, so these fields hold any value; null
stands for a field that is absent.

* `OwnerReference`, `App`, `PackageInstall`, `Package` — the records.
* `Resource` — one of the three resources, and `Kind`, which one.
* `ResourceId` — kind, namespace and name; `ResourceId.same` compares
  them as values.
-/
import AppSynthesis.Manifest.Spec

namespace AppSynthesis

/-! ## Owner references -/

/-- A link to the object that another belongs to. -/
structure OwnerReference where
  apiVersion : String
  kind : String
  name : Value
  uid : Value := .str ""
  /-- Whether the owner controls the object. -/
  controller : Option Bool := none
  blockOwnerDeletion : Option Bool := none
  deriving DecidableEq, Repr, Inhabited

def OwnerReference.schema : Schema OwnerReference where
  name := "OwnerReference"
  Row := String × String × Value × Value × Option Bool × Option Bool × Unit
  fields := .required "api_version" "apiVersion" .text <|
    .required "kind" "kind" .text <|
    .required "name" "name" .anyText <|
    .defaulted "uid" "uid" .anyText (.str "") <|
    .optional "controller" "controller" .flag <|
    .optional "block_owner_deletion" "blockOwnerDeletion" .flag .done
  build := fun (apiVersion, kind, name, uid, controller, blockOwnerDeletion, ()) =>
    { apiVersion, kind, name, uid, controller, blockOwnerDeletion }
  row x := (x.apiVersion, x.kind, x.name, x.uid, x.controller, x.blockOwnerDeletion, ())

/-! ## Resources -/

/-- An App: what is deployed. -/
structure App where
  name : Value := .str ""
  ns : Value := .str ""
  uid : Value := .null
  /-- The version of the stored object that this one was made from. -/
  resourceVersion : Value := .null
  annotations : Value := .null
  labels : Value := .null
  ownerReferences : Option (List OwnerReference) := none
  spec : AppSpec := {}
  /-- What the cluster reports about the App. -/
  status : Value := .null
  deriving DecidableEq, Repr, Inhabited

def App.schema : Schema App where
  name := "App"
  Row := Value × Value × Value × Value × Value × Value × Option (List OwnerReference)
    × AppSpec × Value × Unit
  fields := .defaulted "name" "name" .anyText (.str "") <|
    .defaulted "namespace" "namespace" .anyText (.str "") <|
    .loose "uid" "uid" .anyText <|
    .loose "resource_version" "resourceVersion" .anyText <|
    .loose "annotations" "annotations" (.anyMap .text) <|
    .loose "labels" "labels" (.anyMap .text) <|
    .optional "owner_references" "ownerReferences" (.list OwnerReference.schema.codec) <|
    .defaulted "spec" "spec" AppSpec.schema.codec {} <|
    .loose "status" "status" (.anyMap .any) .done
  build := fun (name, ns, uid, resourceVersion, annotations, labels, ownerReferences, spec,
      status, ()) =>
    { name, ns, uid, resourceVersion, annotations, labels, ownerReferences, spec, status }
  row x := (x.name, x.ns, x.uid, x.resourceVersion, x.annotations, x.labels,
    x.ownerReferences, x.spec, x.status, ())

/-- A request to install a package. -/
structure PackageInstall where
  name : Value
  ns : Value
  uid : Value := .str ""
  annotations : Value := .null
  spec : InstallSpec := {}
  deriving DecidableEq, Repr, Inhabited

def PackageInstall.schema : Schema PackageInstall where
  name := "PackageInstall"
  Row := Value × Value × Value × Value × InstallSpec × Unit
  fields := .required "name" "name" .anyText <|
    .required "namespace" "namespace" .anyText <|
    .defaulted "uid" "uid" .anyText (.str "") <|
    .loose "annotations" "annotations" (.anyMap .text) <|
    .defaulted "spec" "spec" InstallSpec.schema.codec {} .done
  build := fun (name, ns, uid, annotations, spec, ()) => { name, ns, uid, annotations, spec }
  row x := (x.name, x.ns, x.uid, x.annotations, x.spec, ())

/-- A version of a package, with the template of its Apps. -/
structure Package where
  name : Value
  ns : Value
  refName : Value
  version : String
  template : AppSpec := {}
  deriving DecidableEq, Repr, Inhabited

def Package.schema : Schema Package where
  name := "Package"
  Row := Value × Value × Value × String × AppSpec × Unit
  fields := .required "name" "name" .anyText <|
    .required "namespace" "namespace" .anyText <|
    .required "ref_name" "refName" .anyText <|
    .required "version" "version" .text <|
    .defaulted "template" "template" AppSpec.schema.codec {} .done
  build := fun (name, ns, refName, version, template, ()) =>
    { name, ns, refName, version, template }
  row x := (x.name, x.ns, x.refName, x.version, x.template, ())

/-- Namespace and name in one. -/
def namespacedName (ns name : Value) : String := ns.text ++ "/" ++ name.text

/-- The name of an App in its namespace. -/
def App.namespacedName (x : App) : String := AppSynthesis.namespacedName x.ns x.name

/-- The name of an install in its namespace. -/
def PackageInstall.namespacedName (x : PackageInstall) : String :=
  AppSynthesis.namespacedName x.ns x.name

/-- The name of a package in its namespace. -/
def Package.namespacedName (x : Package) : String := AppSynthesis.namespacedName x.ns x.name

/-- The name of the package that an install asks for. -/
def PackageInstall.refName? (x : PackageInstall) : Option String :=
  x.spec.packageRef.map (·.refName)

/-- The version constraints of an install. -/
def PackageInstall.constraints? (x : PackageInstall) : Option String :=
  x.spec.packageRef.bind fun r => r.versionSelection.bind (·.constraints)

/-- The owner reference that is marked as the controller: the first one
that is. -/
def App.controllerReference? (x : App) : Option OwnerReference :=
  (x.ownerReferences.getD []).find? fun r => r.controller = some true

/-! ## Identity -/

/-- The kinds of resources. -/
inductive Kind where
  | app
  | packageInstall
  | package
  deriving DecidableEq, Repr, Inhabited

/-- The name of a kind. -/
def Kind.name : Kind → String
  | .app => "App"
  | .packageInstall => "PackageInstall"
  | .package => "Package"

/-- What names a resource in a store. -/
structure ResourceId where
  kind : String
  ns : Value
  name : Value
  deriving DecidableEq, Repr, Inhabited

namespace ResourceId

/-- The name, after its namespace if that is given. -/
def namespacedName (r : ResourceId) : String :=
  if r.ns.isTrue then AppSynthesis.namespacedName r.ns r.name else r.name.text

/-- The kind and the name. -/
def text (r : ResourceId) : String := r.kind ++ "/" ++ r.namespacedName

/-- Equality of what two identities name. -/
def same (a b : ResourceId) : Bool :=
  a.kind == b.kind && a.ns.agrees b.ns && a.name.agrees b.name

/-- Whether an identity can be looked up: its namespace and its name are
no collections. -/
def isAtomic (r : ResourceId) : Bool := r.ns.isAtomic && r.name.isAtomic

end ResourceId

/-- A resource of any kind. -/
inductive Resource where
  | app (x : App)
  | packageInstall (x : PackageInstall)
  | package (x : Package)
  deriving DecidableEq, Repr

namespace Resource

/-- The kind of a resource. -/
def kind : Resource → Kind
  | .app _ => .app
  | .packageInstall _ => .packageInstall
  | .package _ => .package

/-- The identity of a resource. -/
def id : Resource → ResourceId
  | .app x => ⟨Kind.app.name, x.ns, x.name⟩
  | .packageInstall x => ⟨Kind.packageInstall.name, x.ns, x.name⟩
  | .package x => ⟨Kind.package.name, x.ns, x.name⟩

/-- Equality of resources: they are of the same kind and all their fields
are equal. -/
def same : Resource → Resource → Bool
  | .app x, .app y => App.schema.same x y
  | .packageInstall x, .packageInstall y => PackageInstall.schema.same x y
  | .package x, .package y => Package.schema.same x y
  | _, _ => false

/-- The App, if the resource is one. -/
def app? : Resource → Option App
  | .app x => some x
  | _ => none

/-- The install, if the resource is one. -/
def packageInstall? : Resource → Option PackageInstall
  | .packageInstall x => some x
  | _ => none

/-- The package, if the resource is one. -/
def package? : Resource → Option Package
  | .package x => some x
  | _ => none

end Resource

end AppSynthesis
