/-
AppSynthesis.Manifest.Document — resources as the documents of a cluster.

* `App.parse`, `PackageInstall.parse`, `Package.parse` — a document is
  checked for its API version, then for its metadata, then read member by
  member; the first fault is the answer. Owner references are read before
  the specification.
* `Resource.parse` — the document of a resource of any kind.
* `App.toDoc` — the document of an App.

Members are looked up by name, so a value that is no map where a map
should stand is a fault without a message, unless it does not count as
given; then the member is reported as missing.
-/
import AppSynthesis.Manifest.Record

namespace AppSynthesis

/-! ## Names of APIs -/

namespace Api

/-- The API group of Apps. -/
def appGroup : String := "kappctrl.k14s.io"

/-- The API group of installs. -/
def installGroup : String := "packaging.carvel.dev"

/-- The API group of packages. -/
def packageGroup : String := "data.packaging.carvel.dev"

/-- The API version of a group. -/
def version (group : String) : String := group ++ "/v1alpha1"

/-- The API group of a kind. -/
def group : Kind → String
  | .app => appGroup
  | .packageInstall => installGroup
  | .package => packageGroup

end Api

/-! ## Members -/

/-- The member of a map under a name, null when it has none. -/
def Value.member (v : Value) (name : String) : Except Error Value :=
  match v with
  | .map _ entries => .ok (Entries.getD entries name)
  | _ => .error (.fault .noMember)

/-- The value, unless it does not count as given; then the error. -/
def Value.given (v : Value) (e : InputError) : Except Error Value :=
  if v.isTrue then .ok v else .error (.input e)

/-- Whether text begins with `start`. -/
def Text.startsWith (s start : String) : Bool := start.toList.isPrefixOf s.toList

/-- Checks that the API version of a document begins as its kind
requires. Versions of a group are not told apart. -/
def checkVersion (kind : Kind) (doc : Value) : Except Error Unit := do
  let version ← (← doc.member "apiVersion").given (.noApiVersion doc)
  match version with
  | .str s =>
    if Text.startsWith s (Api.group kind) then .ok ()
    else .error (.input (.wrongApiVersion (Api.group kind) doc))
  | _ => .error (.fault .noMember)

/-- The metadata of a document with its name and namespace. -/
structure Metadata where
  entries : Entries
  name : Value
  ns : Value

/-- The metadata of a document of a kind. -/
def Metadata.parse (kind : Kind) (doc : Value) : Except Error Metadata := do
  let metadata ← (← doc.member "metadata").given (.incomplete kind "metadata" doc)
  let name ← (← metadata.member "name").given (.incomplete kind "metadata.name" doc)
  let ns ← (← metadata.member "namespace").given (.incomplete kind "metadata.namespace" doc)
  match metadata with
  | .map _ entries => return { entries, name, ns }
  | _ => .error (.fault .noMember)

/-- How messages refer to the resource with this metadata. -/
def Metadata.owner (m : Metadata) (kind : Kind) : String :=
  kind.name ++ " " ++ namespacedName m.ns m.name

/-- A part of a resource, read as a record. The unknown keys of a part can
only be listed when they are text. -/
def parsePart {α : Type} (s : Schema α) (owner : String) (v : Value) : Except Error α :=
  match s.decode v with
  | .ok x => .ok x
  | .error .notMap => .error (.fault .noMember)
  | .error (.unknownKeys record keys) =>
    if keys.all Value.isText then
      .error (.input (.invalidPart s.name owner (.unknownKeys record keys)))
    else .error (.fault .wrongKind)
  | .error e => .error (.input (.invalidPart s.name owner e))

/-! ## Reading resources -/

/-- The empty map. -/
def Value.emptyMap : Value := .map none []

/-- The owner references among the metadata; none at all when the list is
empty. -/
def parseOwnerReferences (m : Metadata) : Except Error (Option (List OwnerReference)) :=
  match Entries.get? m.entries "ownerReferences" with
  | none => .ok none
  | some v =>
    match v.members? with
    | none => .error (.fault .wrongKind)
    | some members => do
      let refs ← members.mapM (parsePart OwnerReference.schema (m.owner .app))
      return if refs.isEmpty then none else some refs

/-- The App that a document describes. -/
def App.parse (doc : Value) : Except Error App := do
  checkVersion .app doc
  let m ← Metadata.parse .app doc
  let ownerReferences ← parseOwnerReferences m
  let spec ← parsePart AppSpec.schema (m.owner .app)
    ((← doc.member "spec").orElse .emptyMap)
  return {
    name := m.name
    ns := m.ns
    uid := Entries.getD m.entries "uid"
    resourceVersion := Entries.getD m.entries "resourceVersion"
    annotations := Entries.getD m.entries "annotations"
    labels := Entries.getD m.entries "labels"
    ownerReferences
    spec
    status := ← doc.member "status" }

/-- The install that a document describes. -/
def PackageInstall.parse (doc : Value) : Except Error PackageInstall := do
  checkVersion .packageInstall doc
  let m ← Metadata.parse .packageInstall doc
  let spec ← parsePart InstallSpec.schema (m.owner .packageInstall)
    ((← doc.member "spec").orElse .emptyMap)
  return {
    name := m.name
    ns := m.ns
    uid := (Entries.get? m.entries "uid").getD (.str "")
    annotations := Entries.getD m.entries "annotations"
    spec }

/-- The package that a document describes. -/
def Package.parse (doc : Value) : Except Error Package := do
  checkVersion .package doc
  let m ← Metadata.parse .package doc
  let spec ← (← doc.member "spec").given (.incomplete .package "spec" doc)
  let refName ← (← spec.member "refName").given (.incomplete .package "spec.refName" doc)
  let version ← (← spec.member "version").given (.incomplete .package "spec.version" doc)
  let template ← ((← spec.member "template").orElse .emptyMap).member "spec"
  return {
    name := m.name
    ns := m.ns
    refName
    version := version.text
    template := ← parsePart AppSpec.schema (m.owner .package) (template.orElse .emptyMap) }

/-- The kind of a name. -/
def Kind.ofValue? (v : Value) : Option Kind :=
  [Kind.app, .packageInstall, .package].find? fun k => v = .str k.name

/-- The resource that a document describes. -/
def Resource.parse (doc : Value) : Except Error Resource := do
  let kind ← (← doc.member "kind").given (.noKind doc)
  match Kind.ofValue? kind with
  | some .app => .app <$> App.parse doc
  | some .packageInstall => .packageInstall <$> PackageInstall.parse doc
  | some .package => .package <$> Package.parse doc
  | none => .error (.input (.unsupportedKind kind doc))

/-! ## Writing Apps -/

/-- The members of an App that stand in its metadata. -/
def App.metadataKeys : List String :=
  ["name", "namespace", "uid", "resourceVersion", "annotations", "labels", "ownerReferences"]

/-- The document of an App whose data has the given entries. -/
def App.docOf (entries : Entries) : Value :=
  let metadata := App.metadataKeys.filterMap fun key =>
    (Entries.get? entries key).map fun v => (Value.str key, v)
  .map none ([
    (.str "apiVersion", .str (Api.version Api.appGroup)),
    (.str "kind", .str Kind.app.name),
    (.str "metadata", .map none metadata),
    (.str "spec", Entries.getD entries "spec")]
    ++ match Entries.get? entries "status" with
      | none => []
      | some v => [(.str "status", v)])

/-- The document of an App. -/
def App.toDoc (x : App) : Except Error Value :=
  if x.isWritable then .ok (App.docOf (App.schema.fields.encode (App.schema.row x)))
  else .error (.fault .noMember)

end AppSynthesis
