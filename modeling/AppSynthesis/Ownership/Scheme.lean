/-
AppSynthesis.Ownership.Scheme — groups, versions and kinds of resources.

* `GroupVersionKind` — `ofApiVersion` splits an API version at its last
  slash, `apiVersion` joins group and version again.
* `Scheme` — the registered types; only objects of these may own others.
-/
import AppSynthesis.Manifest.Document

namespace AppSynthesis

/-! ## Group, version and kind -/

/-- The text before and after the last slash; all of it comes after when
there is no slash. -/
def splitAtLastSlash (s : String) : String × String :=
  let reversed := s.toList.reverse
  let after := (reversed.takeWhile (· ≠ '/')).reverse
  let before := ((reversed.dropWhile (· ≠ '/')).drop 1).reverse
  (String.ofList before, String.ofList after)

/-- What identifies a type of resources. -/
structure GroupVersionKind where
  group : String
  version : String
  kind : String
  deriving DecidableEq, Repr, Inhabited

namespace GroupVersionKind

/-- The group and version of an API version, with a kind. -/
def ofApiVersion (apiVersion kind : String) : GroupVersionKind :=
  let (group, version) := splitAtLastSlash apiVersion
  { group, version, kind }

/-- The API version: the version alone in the group without a name. -/
def apiVersion (g : GroupVersionKind) : String :=
  if g.group.isEmpty then g.version else g.group ++ "/" ++ g.version

/-- The written form. -/
def text (g : GroupVersionKind) : String := g.apiVersion ++ ", Kind=" ++ g.kind

end GroupVersionKind

/-- The API group of an owner, empty for the group without a name. -/
def OwnerReference.group (r : OwnerReference) : String := (splitAtLastSlash r.apiVersion).1

/-! ## Schemes -/

/-- The types of resources that are known, with their kinds. -/
structure Scheme where
  kinds : List (RecordType × GroupVersionKind) := []
  deriving DecidableEq, Repr, Inhabited

namespace Scheme

/-- The scheme with a type registered; an earlier registration of the type
no longer counts. -/
def register (s : Scheme) (type : RecordType) (apiVersion kind : String) : Scheme :=
  { kinds := (type, .ofApiVersion apiVersion kind) :: s.kinds }

/-- The kind of a type. -/
def kindOf? (s : Scheme) (type : RecordType) : Option GroupVersionKind :=
  (s.kinds.find? fun e => e.1 = type).map (·.2)

/-- The kind of a type, which has to be registered. -/
def kindOf (s : Scheme) (type : RecordType) : Except Error GroupVersionKind :=
  match s.kindOf? type with
  | some g => .ok g
  | none => .error (.notRegistered type.name)

/-- The kind of a record, which has to be of a registered type. -/
def kindOfRecord (s : Scheme) : Option Record → Except Error GroupVersionKind
  | some r => s.kindOf r.type
  | none => .error (.notRegistered (Record.typeName none))

/-- The scheme of the three resources. -/
def standard : Scheme :=
  [Kind.app, .packageInstall, .package].foldl
    (fun s k => s.register (.ofKind k) (Api.version (Api.group k)) k.name) {}

end Scheme

end AppSynthesis
