/-
AppSynthesis.Resolution — the package that an install means.

* `candidates` — the packages of the right name in the namespace of the
  install or in the global one, and of the right version when the install
  constrains it.
* `choose` — one candidate; those in the namespace of the install come
  before global ones.
* `resolvePackage` — the package, when the candidates agree on a version.
-/
import AppSynthesis.Manifest.Document

namespace AppSynthesis

/-! ## Candidates -/

/-- The version that constraints ask for: blanks around it do not count,
nor does an equals sign before it. -/
def exactVersion (constraints : String) : String :=
  match Text.trimBoth Text.isBlank constraints.toList with
  | '=' :: rest => String.ofList (Text.trimBoth Text.isBlank rest)
  | cs => String.ofList cs

/-- The constraints of an install; empty ones constrain nothing. -/
def PackageInstall.constraint? (install : PackageInstall) : Option String :=
  match install.constraints? with
  | none => none
  | some c => if c.isEmpty then none else some c

/-- Whether a package lies where an install looks for packages: in its own
namespace or in the global one. Without a global namespace those that lie
in none are seen everywhere. -/
def Package.isVisible (package : Package) (ns : Value) (globalNamespace : Option String) : Bool :=
  package.ns.agrees ns ||
    match globalNamespace with
    | none => package.ns.same .null
    | some g => package.ns.same (.str g)

/-- Whether a package has the version that an install asks for. -/
def Package.satisfies (package : Package) (constraint : Option String) : Bool :=
  match constraint with
  | none => true
  | some c => package.version == exactVersion c

/-- The packages that would satisfy an install which asks for `refName`. -/
def candidates (packages : List Package) (install : PackageInstall) (refName : String)
    (globalNamespace : Option String) : List Package :=
  packages.filter fun p =>
    p.refName.same (.str refName) && p.isVisible install.ns globalNamespace
      && p.satisfies install.constraint?

/-! ## Choice -/

/-- The first candidate in the namespace, or the first of all. -/
def choose (ns : Value) (candidates : List Package) : Option Package :=
  candidates.find? (fun p => p.ns.same ns) <|> candidates.head?

/-- The versions of packages, each once, in order. -/
def versionsOf (packages : List Package) : List String :=
  sortTexts (packages.map (·.version)).eraseDups

/-- The package that an install means, among the packages of a store. The
namespace of the install must be no collection. -/
def resolvePackage (packages : List Package) (install : PackageInstall)
    (globalNamespace : Option String) : Except Error Package :=
  match install.refName? with
  | none => .error (.input (.noPackageRef install.namespacedName))
  | some refName =>
    if refName.isEmpty then .error (.input (.noPackageRef install.namespacedName))
    else if !install.ns.isAtomic then .error (.fault .wrongKind)
    else
      let found := candidates packages install refName globalNamespace
      let versions := versionsOf found
      match choose install.ns found with
      | none =>
        .error (.noPackage refName (install.constraint?.getD "*") install.namespacedName)
      | some package =>
        if 1 < versions.length then
          .error (.input (.severalVersions install.namespacedName refName versions))
        else .ok package

/-- The package that a record means. A record that is no install lacks
what is needed; a package has a name to look for, so its namespace is
looked at first. -/
def resolveForRecord (packages : List Package) (install : Option Record)
    (globalNamespace : Option String) : Except Error Package :=
  match install with
  | some ⟨.packageInstall, x⟩ => resolvePackage packages x globalNamespace
  | some ⟨.package, x⟩ =>
    let x : Package := x
    if !x.refName.isTrue then .error (.input (.noPackageRef x.namespacedName))
    else if !x.ns.isAtomic then .error (.fault .wrongKind)
    else .error (.fault .noMember)
  | _ => .error (.fault .noMember)

end AppSynthesis
