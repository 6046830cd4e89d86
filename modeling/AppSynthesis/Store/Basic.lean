/-
AppSynthesis.Store.Basic — a store of resources that detects conflicting
writes.

* `Store` — the resources under their identities in the order in which
  they first came, the registrations of listeners, and a revision counter.
  Every App that is written gets the next revision as its version.
* `Store.add` — refuses an App that was not made from the stored one, and
  leaves the store as it is when an equal resource is there already.
* `Store.get`, `Store.delete`, `Store.list` — look-up, removal, listing.
* `Store.register`, `Store.unregister` — registrations; the same listener
  may be registered several times, and unregistering it takes away the
  first of its registrations for the event.
-/
import AppSynthesis.Manifest.Record

namespace AppSynthesis

/-! ## Stores -/

/-- What listeners are told about. -/
inductive StoreEvent where
  | added
  | deleted
  deriving DecidableEq, Repr

/-- The name of an event in messages. -/
def StoreEvent.name : StoreEvent → String
  | .added => "StoreEvent.OBJECT_ADDED"
  | .deleted => "StoreEvent.OBJECT_DELETED"

/-- What tells listeners apart. -/
abbrev ListenerId := Nat

/-- A store of resources. -/
structure Store where
  objects : List (ResourceId × Resource) := []
  registrations : List (StoreEvent × ListenerId) := []
  /-- The number of Apps written so far. -/
  revision : Nat := 0
  /-- The number of App writes that are refused before any is accepted. -/
  refusals : Nat := 0
  deriving DecidableEq, Repr

/-- What came of a write that was not refused. -/
inductive Receipt where
  /-- An equal resource is there already; nothing was written. -/
  | unchanged
  /-- The resource as it was written. -/
  | stored (obj : Resource)
  deriving DecidableEq, Repr

/-- The resource that a writer gets back for the one it handed in. -/
def Receipt.object (handedIn : Resource) : Receipt → Resource
  | .unchanged => handedIn
  | .stored obj => obj

namespace Store

/-! ## Objects -/

/-- The resource under an identity. -/
def find? (s : Store) (id : ResourceId) : Option Resource :=
  (s.objects.find? fun e => e.1.same id).map (·.2)

/-- The objects with `obj` under an identity: in the place of the one that
is there, or at the end. -/
def place (id : ResourceId) (obj : Resource) :
    List (ResourceId × Resource) → List (ResourceId × Resource)
  | [] => [(id, obj)]
  | (i, o) :: rest => if i.same id then (i, obj) :: rest else (i, o) :: place id obj rest

/-- The version of a resource; only Apps have one. -/
def versionOf : Resource → Value
  | .app x => x.resourceVersion
  | _ => .null

/-- The version that the store has of an App, null when it has none. -/
def currentVersion (s : Store) (id : ResourceId) : Value :=
  match s.find? id with
  | some obj => versionOf obj
  | none => .null

/-- The resource as it is written: an App gets the next version. -/
def stamped (s : Store) : Resource → Resource
  | .app x => .app { x with resourceVersion := .str (Numeral.ofNat (s.revision + 1)) }
  | obj => obj

/-- The revision after writing a resource. -/
def revisionAfter (s : Store) : Resource → Nat
  | .app _ => s.revision + 1
  | _ => s.revision

/-- The error, if any, that keeps a resource from being written. -/
def objection? (s : Store) (obj : Resource) : Option Error :=
  if !obj.id.isAtomic then some (.fault .wrongKind)
  else
    match obj with
    | .app x =>
      if x.resourceVersion.same (s.currentVersion obj.id) then none
      else some (.conflict obj.id.text x.resourceVersion (s.currentVersion obj.id))
    | _ => none

/-- Whether an equal resource is in the store. -/
def holds (s : Store) (obj : Resource) : Bool :=
  match s.find? obj.id with
  | some existing => existing.same obj
  | none => false

/-- The store with a resource written, whatever it holds. -/
def write (s : Store) (obj : Resource) : Store :=
  { s with
    objects := place obj.id (s.stamped obj) s.objects
    revision := s.revisionAfter obj }

/-- Adds a resource, or replaces the one with its identity. -/
def add (s : Store) (obj : Resource) : Except Error Receipt × Store :=
  match obj, s.refusals with
  | .app x, refusals + 1 =>
    (.error (.conflict (Kind.app.name ++ "/" ++ x.namespacedName) x.resourceVersion
      (.str "other")), { s with refusals })
  | _, _ =>
    match s.objection? obj with
    | some e => (.error e, s)
    | none =>
      if s.holds obj then (.ok .unchanged, s)
      else (.ok (.stored (s.stamped obj)), s.write obj)

/-- The resource under an identity, which has to be of the given type. The
bare type stands for all. -/
def get (s : Store) (id : ResourceId) (type : RecordType) : Except Error (Option Resource) :=
  if !id.isAtomic then .error (.fault .wrongKind)
  else
    match s.find? id with
    | none => .ok none
    | some obj =>
      if type = .bare ∨ type = .ofKind obj.kind then .ok (some obj)
      else .error (.misuse (.wrongType id.namespacedName type.name obj.kind.name))

/-- Removes the resource under an identity and hands it out. -/
def delete (s : Store) (id : ResourceId) : Except Error (Resource × Store) :=
  if !id.isAtomic then .error (.fault .wrongKind)
  else
    match s.find? id with
    | none => .error (.noObject id)
    | some obj =>
      .ok (obj, { s with objects := s.objects.eraseP fun e => e.1.same id })

/-- The resources in order, of one kind or of all. -/
def list (s : Store) (kind : Option String) : List Resource :=
  match kind with
  | none => s.objects.map (·.2)
  | some k => (s.objects.map (·.2)).filter fun obj => obj.kind.name == k

/-- The packages in order. -/
def packages (s : Store) : List Package := (s.objects.map (·.2)).filterMap Resource.package?

/-- The installs in order. -/
def installs (s : Store) : List PackageInstall :=
  (s.objects.map (·.2)).filterMap Resource.packageInstall?

/-! ## Registrations -/

/-- The listeners of an event, once for each registration, in order. -/
def listeners (s : Store) (event : StoreEvent) : List ListenerId :=
  (s.registrations.filter fun r => r.1 = event).map (·.2)

/-- The store with a listener registered for an event. -/
def register (s : Store) (event : StoreEvent) (listener : ListenerId) : Store :=
  { s with registrations := s.registrations ++ [(event, listener)] }

/-- The store without the first registration of a listener for an event. -/
def unregister (s : Store) (event : StoreEvent) (listener : ListenerId) : Store :=
  { s with registrations := s.registrations.erase (event, listener) }

end Store

end AppSynthesis
