/-
AppSynthesis.Build — making an App once, from files.

* `BuildRequest` — the files and the defaults to work with.
* `Store.load` — a store with what documents describe, in order.
* `buildApp` — the App for the only install in a store, made from the App
  that exists, if any. Only packages in the namespace of the install are
  looked for.
* `BuildRequest.app`, `BuildRequest.document` — the App that a request
  asks for, and its document. Files are read one after the other, the App
  that exists last.
-/
import AppSynthesis.Folder
import AppSynthesis.Resolution
import AppSynthesis.Store.Basic
import AppSynthesis.Synthesis.App
import AppSynthesis.Yaml.Printer

namespace AppSynthesis

/-- What to make an App from. -/
structure BuildRequest where
  /-- The file with the install. -/
  install : String
  /-- The files with packages. -/
  packages : List String
  /-- The file with the App that exists. -/
  existing : Option String := none
  /-- The sync period of installs that set none. -/
  defaultSyncPeriod : Duration := .tenMinutes
  /-- The file that the App is written to. -/
  output : String := Path.standardOutput
  deriving DecidableEq, Repr

/-! ## From documents -/

/-- Adds what documents describe to a store, in order. -/
def Store.load : List Value → Store → Except Error Store
  | [], s => .ok s
  | doc :: rest, s => do
    match s.add (← Resource.parse doc) with
    | (.error e, _) => .error e
    | (.ok _, s) => Store.load rest s

/-- The only install in a store. The path is the file that it should be
in. -/
def Store.onlyInstall (s : Store) (path : String) : Except Error PackageInstall :=
  match s.installs with
  | [install] => .ok install
  | installs => .error (.input (.installCount path installs.length))

/-- The App for the only install in a store, with packages from the store.
The App that exists is asked for last. -/
def buildApp (s : Store) (path : String) (existing : Except Error (Option App))
    (defaultSyncPeriod : Duration) : Except Error App := do
  let install ← s.onlyInstall path
  let package ← resolvePackage s.packages install none
  newApp (← existing) install package { defaultSyncPeriod := some defaultSyncPeriod }

/-- The first App among documents. -/
def findApp (path : String) : List Value → Except Error App
  | [] => .error (.input (.noApp path))
  | doc :: rest => do
    if (← doc.member "kind") = .str Kind.app.name then App.parse doc else findApp path rest

/-! ## From files -/

/-- Adds what files describe to a store, one after the other. -/
def Store.loadFiles (read : String → Except Fault String) :
    List String → Store → Nat → Except Error (Store × Nat)
  | [], s, next => .ok (s, next)
  | path :: rest, s, next => do
    let (docs, next) ← readDocuments read path next
    Store.loadFiles read rest (← s.load docs) next

namespace BuildRequest

/-- The files that a request reads. -/
def paths (r : BuildRequest) : List String := r.install :: r.packages ++ r.existing.toList

/-- The App that exists, if the request names a file with one. -/
def existingApp (r : BuildRequest) (read : String → Except Fault String) (next : Nat) :
    Except Error (Option App) :=
  match r.existing with
  | none => .ok none
  | some path => do
    let (docs, _) ← readDocuments read path next
    some <$> findApp path docs

/-- The App that a request asks for. -/
def app (r : BuildRequest) (read : String → Except Fault String) : Except Error App := do
  let (store, next) ← Store.loadFiles read (r.install :: r.packages) {} 0
  buildApp store r.install (r.existingApp read next) r.defaultSyncPeriod

/-- The document of the App that a request asks for. -/
def document (r : BuildRequest) (read : String → Except Fault String) : Except Error String := do
  return (← (← r.app read).toDoc).yaml

end BuildRequest

end AppSynthesis
