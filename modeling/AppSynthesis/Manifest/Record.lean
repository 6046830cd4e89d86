/-
AppSynthesis.Manifest.Record — all record types under their names, and
records of any type.

* `RecordType` — the record types; `RecordType.schema` is how each stands
  in documents.
* `Record` — a record together with its type.
* `Record.decode`, `Record.encode`, `Record.same` — what is common to all
  types. Writing fails for a resource whose annotations, labels or status
  are no collections.
-/
import AppSynthesis.Error

namespace AppSynthesis

/-! ## Record types -/

/-- The record types. The bare record has no fields; it also stands for
records of any type. -/
inductive RecordType where
  | bare
  | objectRef
  | filesRef
  | inlineSource
  | inline
  | image
  | http
  | git
  | repository
  | helmChart
  | bundle
  | fetchStep
  | valuesRef
  | valuesSource
  | ytt
  | helm
  | templateStep
  | kubeconfigRef
  | cluster
  | appSpec
  | ownerReference
  | app
  | versionSelection
  | packageRef
  | installValuesRef
  | installValues
  | installSpec
  | packageInstall
  | package
  deriving DecidableEq, Repr, Inhabited

namespace RecordType

/-- The record without fields. -/
def bareSchema : Schema Unit where
  name := "BaseManifest"
  Row := Unit
  fields := .done
  build := fun () => ()
  row _ := ()

/-- The records of a type. -/
def Carrier : RecordType → Type
  | .bare => Unit
  | .objectRef => ObjectRef
  | .filesRef => FilesRef
  | .inlineSource => Fetch.InlineSource
  | .inline => Fetch.Inline
  | .image => Fetch.Image
  | .http => Fetch.Http
  | .git => Fetch.Git
  | .repository => Fetch.Repository
  | .helmChart => Fetch.HelmChart
  | .bundle => Fetch.Bundle
  | .fetchStep => Fetch.Step
  | .valuesRef => ValuesRef
  | .valuesSource => Template.ValuesSource
  | .ytt => Template.Ytt
  | .helm => Template.Helm
  | .templateStep => Template.Step
  | .kubeconfigRef => KubeconfigRef
  | .cluster => Cluster
  | .appSpec => AppSpec
  | .ownerReference => OwnerReference
  | .app => App
  | .versionSelection => VersionSelection
  | .packageRef => PackageRef
  | .installValuesRef => InstallValuesRef
  | .installValues => InstallValues
  | .installSpec => InstallSpec
  | .packageInstall => PackageInstall
  | .package => Package

/-- How the records of a type stand in documents. -/
def schema : (t : RecordType) → Schema t.Carrier
  | .bare => bareSchema
  | .objectRef => ObjectRef.schema
  | .filesRef => FilesRef.schema
  | .inlineSource => Fetch.InlineSource.schema
  | .inline => Fetch.Inline.schema
  | .image => Fetch.Image.schema
  | .http => Fetch.Http.schema
  | .git => Fetch.Git.schema
  | .repository => Fetch.Repository.schema
  | .helmChart => Fetch.HelmChart.schema
  | .bundle => Fetch.Bundle.schema
  | .fetchStep => Fetch.Step.schema
  | .valuesRef => ValuesRef.schema
  | .valuesSource => Template.ValuesSource.schema
  | .ytt => Template.Ytt.schema
  | .helm => Template.Helm.schema
  | .templateStep => Template.Step.schema
  | .kubeconfigRef => KubeconfigRef.schema
  | .cluster => Cluster.schema
  | .appSpec => AppSpec.schema
  | .ownerReference => OwnerReference.schema
  | .app => App.schema
  | .versionSelection => VersionSelection.schema
  | .packageRef => PackageRef.schema
  | .installValuesRef => InstallValuesRef.schema
  | .installValues => InstallValues.schema
  | .installSpec => InstallSpec.schema
  | .packageInstall => PackageInstall.schema
  | .package => Package.schema

/-- The name of a record type. -/
def name (t : RecordType) : String := t.schema.name

/-- All record types. -/
def all : List RecordType :=
  [.bare, .objectRef, .filesRef, .inlineSource, .inline, .image, .http, .git, .repository,
    .helmChart, .bundle, .fetchStep, .valuesRef, .valuesSource, .ytt, .helm, .templateStep,
    .kubeconfigRef, .cluster, .appSpec, .ownerReference, .app, .versionSelection, .packageRef,
    .installValuesRef, .installValues, .installSpec, .packageInstall, .package]

/-- The record type of a name. -/
def ofName? (name : String) : Option RecordType := all.find? fun t => t.name = name

/-- The record type of a kind of resources. -/
def ofKind : Kind → RecordType
  | .app => .app
  | .packageInstall => .packageInstall
  | .package => .package

end RecordType

/-! ## Writing resources -/

/-- Whether a value can be copied as a collection, or is absent. -/
def Value.isCollection : Value → Bool
  | .null => true
  | .list _ _ => true
  | .map _ _ => true
  | _ => false

/-- Whether an App can be written. -/
def App.isWritable (x : App) : Bool :=
  x.annotations.isCollection && x.labels.isCollection && x.status.isCollection

/-- The document data of an App. -/
def App.data (x : App) : Except Error Value :=
  if x.isWritable then .ok (App.schema.encode x) else .error (.fault .noMember)

/-- The document data of an install. -/
def PackageInstall.data (x : PackageInstall) : Except Error Value :=
  if x.annotations.isCollection then .ok (PackageInstall.schema.encode x)
  else .error (.fault .noMember)

/-! ## Records of any type -/

/-- A record with its type. -/
structure Record where
  type : RecordType
  val : type.Carrier

namespace Record

/-- The record of a type that a value stands for. A bare record takes
nothing from the value, so every value stands for one. -/
def decode (t : RecordType) (v : Value) : Except Error Record :=
  if t = .bare then .ok ⟨.bare, ()⟩
  else
    match t.schema.decode v with
    | .ok x => .ok ⟨t, x⟩
    | .error .notMap => .error (.fault .noMember)
    | .error e => .error (.decode e)

/-- The document data of a record. -/
def data : Record → Except Error Value
  | ⟨.app, x⟩ => App.data x
  | ⟨.packageInstall, x⟩ => PackageInstall.data x
  | ⟨t, x⟩ => .ok (t.schema.encode x)

/-- The members of a record by their names; absent ones are null. -/
def members (r : Record) : List (String × Value) :=
  r.type.schema.fields.values (r.type.schema.row r.val)

/-- The member of a record under a name. A type without that member, or no
record at all, is a fault. -/
def member (r : Option Record) (name : String) : Except Error Value :=
  match r.bind fun r => r.members.find? fun m => m.1 = name with
  | some m => .ok m.2
  | none => .error (.fault .noMember)

/-- Equality of records: the same type and equal fields. -/
def same (a b : Record) : Bool :=
  if h : a.type = b.type then b.type.schema.same (h ▸ a.val) b.val else false

/-- A resource as a record. -/
def ofResource : Resource → Record
  | .app x => ⟨.app, x⟩
  | .packageInstall x => ⟨.packageInstall, x⟩
  | .package x => ⟨.package, x⟩

/-- The resource, if the record is one. -/
def resource? : Record → Option Resource
  | ⟨.app, x⟩ => some (.app x)
  | ⟨.packageInstall, x⟩ => some (.packageInstall x)
  | ⟨.package, x⟩ => some (.package x)
  | _ => none

/-- The resource that a record is. Nothing else has an identity. -/
def toResource (r : Option Record) : Except Error Resource :=
  match r.bind resource? with
  | some x => .ok x
  | none => .error (.misuse .unidentified)

/-- The source of content, if the record is one. -/
def source? : Record → Option Fetch.Source
  | ⟨.inline, x⟩ => some (.inline x)
  | ⟨.image, x⟩ => some (.image x)
  | ⟨.http, x⟩ => some (.http x)
  | ⟨.git, x⟩ => some (.git x)
  | ⟨.helmChart, x⟩ => some (.helmChart x)
  | ⟨.bundle, x⟩ => some (.imgpkgBundle x)
  | _ => none

/-- A source of content as a record. -/
def ofSource : Fetch.Source → Record
  | .inline x => ⟨.inline, x⟩
  | .image x => ⟨.image, x⟩
  | .http x => ⟨.http, x⟩
  | .git x => ⟨.git, x⟩
  | .helmChart x => ⟨.helmChart, x⟩
  | .imgpkgBundle x => ⟨.bundle, x⟩

/-- The name of the type of a record, or of no record at all. -/
def typeName : Option Record → String
  | none => "NoneType"
  | some r => r.type.name

/-- A fetch step with its source replaced by a record, which has to be a
source. -/
def replaceSource (step : Fetch.Step) (r : Option Record) : Except Error Fetch.Step :=
  match r.bind source? with
  | some s => .ok (step.withSource s)
  | none => .error (.misuse (.unsupportedSource (typeName r)))

end Record

end AppSynthesis
