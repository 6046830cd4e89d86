/-
AppSynthesis.Error — what can go wrong, by cause.

* `InputError` — a document or a request is not as it should be.
* `Error` — all causes. `Error.isReported` tells those that an operator
  is told about, with a message, from faults in the shape of data that
  nothing checks for.
* `Error.message?` — the wording.
-/
import AppSynthesis.Manifest.Resource

namespace AppSynthesis

/-! ## Causes -/

/-- What is wrong with a document or a request. -/
inductive InputError where
  /-- A duration that is not text. -/
  | durationNotText (value : Value)
  /-- Text that is no duration. -/
  | malformedDuration (text : String)
  /-- An object without an API version. -/
  | noApiVersion (doc : Value)
  /-- An object whose API version does not begin as its kind requires. -/
  | wrongApiVersion (expected : String) (doc : Value)
  /-- An object without a kind. -/
  | noKind (doc : Value)
  /-- An object of a kind that there is no use for. -/
  | unsupportedKind (kind doc : Value)
  /-- A resource that lacks a member. -/
  | incomplete (kind : Kind) (member : String) (doc : Value)
  /-- A part of a resource that cannot be read. -/
  | invalidPart (record owner : String) (cause : DecodeError)
  /-- A file that is no sequence of documents. -/
  | unreadable (path : String)
  /-- An install that names no package. -/
  | noPackageRef (install : String)
  /-- An install that several versions of its package would satisfy. -/
  | severalVersions (install package : String) (versions : List String)
  /-- A file without an App. -/
  | noApp (path : String)
  /-- Files that do not hold exactly one install. -/
  | installCount (path : String) (count : Nat)
  deriving DecidableEq, Repr

/-- A request that the caller should not have made. -/
inductive Misuse where
  /-- A record of this type is no source of content. -/
  | unsupportedSource (type : String)
  /-- The object looked up is of another type. -/
  | wrongType (object expected actual : String)
  /-- The object has no identity. -/
  | unidentified
  deriving DecidableEq, Repr

/-- A fault that has no message of its own. -/
inductive Fault where
  /-- A value has no member of the name asked for. -/
  | noMember
  /-- A value is of a kind that the operation does not take. -/
  | wrongKind
  /-- A number is out of range. -/
  | outOfRange
  /-- A scalar does not have the form that its tag requires. -/
  | badScalar
  /-- A scalar is empty although its tag requires text. -/
  | emptyScalar
  /-- A scalar is not among those that its tag allows. -/
  | unknownScalar
  /-- There is no such file. -/
  | noFile
  /-- A directory stands where a file should. -/
  | isDirectory
  /-- A file stands where a directory should. -/
  | notDirectory
  /-- A listener gave up. -/
  | listenerFailed
  /-- Listeners have called for one another too deeply. -/
  | nestedTooDeep
  deriving DecidableEq, Repr

/-- Everything that can go wrong. -/
inductive Error where
  | input (cause : InputError)
  /-- An owner in another namespace than what it should own. -/
  | crossNamespace (owner object : Value)
  /-- A type that the scheme does not know. -/
  | notRegistered (type : String)
  /-- An object that another owner controls. -/
  | alreadyOwned (object owner : String)
  /-- No package satisfies an install. -/
  | noPackage (package constraints install : String)
  /-- An install that is not in the store. -/
  | noInstall (id : ResourceId)
  /-- An object that is not in the store. -/
  | noObject (id : ResourceId)
  /-- An object that has been changed since it was read. -/
  | conflict (object : String) (expected actual : Value)
  | decode (cause : DecodeError)
  | misuse (cause : Misuse)
  | fault (cause : Fault)
  deriving DecidableEq, Repr

/-! ## Wording -/

/-- The text by which messages refer to the type of a kind. -/
def Kind.typeText (k : Kind) : String := "<class 'packageinstall.manifest." ++ k.name ++ "'>"

/-- The wording of an input error. -/
def InputError.message : InputError → String
  | .durationNotText value => "Invalid duration: '" ++ value.text ++ "' is not a string"
  | .malformedDuration text => "Invalid duration: '" ++ text ++ "'"
  | .noApiVersion doc => "Invalid object missing apiVersion: " ++ doc.text
  | .wrongApiVersion expected doc =>
    "Invalid object expected '" ++ expected ++ "': " ++ doc.text
  | .noKind doc => "Invalid object missing kind: " ++ doc.text
  | .unsupportedKind kind doc =>
    "Unsupported object kind '" ++ kind.text ++ "': " ++ doc.text
  | .incomplete kind member doc =>
    "Invalid " ++ kind.typeText ++ " missing " ++ member ++ ": " ++ doc.text
  | .invalidPart record owner cause =>
    "Invalid " ++ record ++ " in " ++ owner ++ ": " ++ cause.message
  | .unreadable path => "Unable to parse " ++ path
  | .noPackageRef install =>
    "PackageInstall " ++ install ++ " missing spec.packageRef.refName"
  | .severalVersions install package versions =>
    "PackageInstall " ++ install ++ " matches multiple versions of " ++ package ++ " "
      ++ (Value.list none (versions.map .str)).literal
      ++ ", set versionSelection.constraints"
  | .noApp path => "No App found in " ++ path
  | .installCount path count =>
    "Expected one PackageInstall in " ++ path ++ ", found " ++ Numeral.ofNat count

/-- The wording of a misuse. -/
def Misuse.message : Misuse → String
  | .unsupportedSource type => "Unsupported fetch source " ++ type
  | .wrongType object expected actual =>
    "Object " ++ object ++ " is not of type " ++ expected ++ " (was " ++ actual ++ ")"
  | .unidentified => "Object must have kind, namespace, and name attributes"

/-- A version in messages; one that does not count as given is `none`. -/
def versionText (v : Value) : String := if v.isTrue then v.text else "none"

/-- The wording of an error; faults have none. -/
def Error.message? : Error → Option String
  | .input cause => some cause.message
  | .crossNamespace owner object =>
    some ("Cross-namespace owner references are disallowed, owner's namespace " ++ owner.text
      ++ ", obj's namespace " ++ object.text)
  | .notRegistered type => some ("No kind is registered for the type " ++ type ++ " in scheme")
  | .alreadyOwned object owner =>
    some ("Object " ++ object ++ " is already owned by another controller " ++ owner)
  | .noPackage package constraints install =>
    some ("No Package " ++ package ++ " matching '" ++ constraints
      ++ "' found for PackageInstall " ++ install)
  | .noInstall id => some ("PackageInstall " ++ id.text ++ " not found")
  | .noObject id => some ("Object " ++ id.text ++ " not found")
  | .conflict object expected actual =>
    some ("Object " ++ object ++ " has been modified: expected resourceVersion "
      ++ versionText expected ++ ", found " ++ versionText actual)
  | .decode .notMap => none
  | .decode cause => some cause.message
  | .misuse cause => some cause.message
  | .fault _ => none

/-- Whether an error is one that operators are told about; misuses, faults
and records refused on their own are not. -/
def Error.isReported : Error → Bool
  | .decode _ => false
  | .misuse _ => false
  | .fault _ => false
  | _ => true

end AppSynthesis
