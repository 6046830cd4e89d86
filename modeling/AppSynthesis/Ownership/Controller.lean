/-
AppSynthesis.Ownership.Controller — the owner that controls an App.

* `OwnerReference.refersTo` — two references mean the same owner when
  they agree on group, kind and name; the version does not count.
* `App.claim` — the owner references of an App with one made its
  controller: the first reference to that owner is replaced, or the new
  one is added at the end. An App that another owner controls is refused.
* `Owner.controlOf`, `controlOfRecord` — the same from the owner itself.
-/
import AppSynthesis.Ownership.Scheme

namespace AppSynthesis

/-! ## References to one owner -/

/-- Whether two references mean the same owner. -/
def OwnerReference.refersTo (a b : OwnerReference) : Bool :=
  a.group == b.group && a.kind == b.kind && a.name.same b.name

/-- The references with `ref` in place of the first that means the same
owner, or at the end. -/
def OwnerReference.upsert (ref : OwnerReference) : List OwnerReference → List OwnerReference
  | [] => [ref]
  | r :: rest => if r.refersTo ref then ref :: rest else r :: ref.upsert rest

/-- The owner references of an App with `ref` made its controller. -/
def App.claim (app : App) (ref : OwnerReference) : Except Error (List OwnerReference) :=
  match app.controllerReference? with
  | some existing =>
    if existing.refersTo ref then .ok (ref.upsert (app.ownerReferences.getD []))
    else
      .error (.alreadyOwned app.namespacedName (existing.kind ++ "/" ++ existing.name.text))
  | none => .ok (ref.upsert (app.ownerReferences.getD []))

/-! ## Owners -/

/-- What counts of an owner. -/
structure Owner where
  type : RecordType
  name : Value
  ns : Value
  uid : Value
  deriving DecidableEq, Repr

/-- An install as an owner. -/
def PackageInstall.owner (x : PackageInstall) : Owner :=
  ⟨.packageInstall, x.name, x.ns, x.uid⟩

/-- Owners that have a namespace own within it only. -/
def checkNamespaces (owner object : Value) : Except Error Unit :=
  if owner.isTrue && !owner.same object then .error (.crossNamespace owner object) else .ok ()

/-- The reference that makes an owner of some kind the controller. -/
def OwnerReference.controlling (g : GroupVersionKind) (name uid : Value) : OwnerReference :=
  { apiVersion := g.apiVersion, kind := g.kind, name, uid, controller := some true,
    blockOwnerDeletion := some true }

/-- The owner references of an App with an owner made its controller. -/
def Owner.controlOf (owner : Owner) (app : App) (scheme : Scheme) :
    Except Error (List OwnerReference) := do
  let g ← scheme.kindOf owner.type
  checkNamespaces owner.ns app.ns
  app.claim (.controlling g owner.name owner.uid)

/-- The owner references of a record with another record made its
controller. Types that lack a member which is needed are faults, found in
the order in which the members are needed. -/
def controlOfRecord (owner object : Option Record) (scheme : Scheme) :
    Except Error (List OwnerReference) := do
  let g ← scheme.kindOfRecord owner
  let ns ← Record.member owner "namespace"
  if ns.isTrue then checkNamespaces ns (← Record.member object "namespace")
  let ref := OwnerReference.controlling g (← Record.member owner "name")
    (← Record.member owner "uid")
  match object with
  | some ⟨.app, app⟩ => App.claim app ref
  | _ => .error (.fault .noMember)

end AppSynthesis
