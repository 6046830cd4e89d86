/-
AppSynthesis.Store.Live — a store in use: its listeners run when something
is written or removed, and may themselves use the store.

* `LiveStore` — a store with its log and the calls made to listeners.
* `Behaviour` — what each listener does when it is called.
* `Script.runWith` — a script run on a live store, given how a listener is
  called. A write that stored something calls, once per registration and
  in order, the listeners that were registered at that moment; an error of
  a listener is logged and stays without effect on the others. An error
  while a new listener is shown what is there ends the request, and leaves
  the listener registered.
* `deliver`, `Script.run` — listeners call for one another to a limited
  depth.
-/
import AppSynthesis.Store.Script

namespace AppSynthesis

/-! ## Live stores -/

/-- A line of the log. -/
structure LogLine where
  level : LogLevel
  text : String
  deriving DecidableEq, Repr

/-- A call to a listener. -/
structure Delivery where
  listener : ListenerId
  event : StoreEvent
  /-- Whether the call answers a write or removal; the others show a new
  listener what is there. -/
  fired : Bool
  id : ResourceId
  object : Resource
  deriving DecidableEq, Repr

/-- A store with its log and the calls made to its listeners, in order. -/
structure LiveStore where
  store : Store := {}
  log : List LogLine := []
  deliveries : List Delivery := []
  deriving DecidableEq, Repr

namespace LiveStore

/-- The live store with a line logged. -/
def logged (w : LiveStore) (level : LogLevel) (text : String) : LiveStore :=
  { w with log := w.log ++ [⟨level, text⟩] }

/-- The live store with a call to a listener recorded. -/
def recorded (w : LiveStore) (d : Delivery) : LiveStore :=
  { w with deliveries := w.deliveries ++ [d] }

end LiveStore

/-- What each listener does about a resource. -/
abbrev Behaviour := ListenerId → ResourceId → Resource → Script Unit

/-- How a listener is called. -/
abbrev Call := Delivery → LiveStore → Except Error Unit × LiveStore

/-! ## Calling listeners -/

/-- What is logged when a listener ends in an error. -/
def listenerFailure (event : StoreEvent) : String :=
  "Store listener callback failed for event " ++ event.name

/-- Calls one listener about an event that has happened. -/
def notifyOne (call : Call) (d : Delivery) (w : LiveStore) : LiveStore :=
  match call d w with
  | (.ok _, w) => w
  | (.error _, w) => w.logged .error (listenerFailure d.event)

/-- Calls the listeners of an event that has happened: those registered
now, whatever becomes of the registrations meanwhile. -/
def notify (call : Call) (event : StoreEvent) (id : ResourceId) (obj : Resource)
    (w : LiveStore) : LiveStore :=
  (w.store.listeners event).foldl
    (fun w listener => notifyOne call ⟨listener, event, true, id, obj⟩ w) w

/-- Calls a new listener for resources in turn, until one call fails. -/
def flush (call : Call) (listener : ListenerId) :
    List (ResourceId × Resource) → LiveStore → Except Error Unit × LiveStore
  | [], w => (.ok (), w)
  | (id, obj) :: rest, w =>
    match call ⟨listener, .added, false, id, obj⟩ w with
    | (.ok _, w) => flush call listener rest w
    | (.error e, w) => (.error e, w)

/-! ## Running scripts -/

namespace LiveStore

/-- Adds a resource and calls the listeners if it was stored. -/
def add (call : Call) (obj : Resource) (w : LiveStore) : Except Error Receipt × LiveStore :=
  match w.store.add obj with
  | (.ok (.stored written), store) =>
    (.ok (.stored written), notify call .added obj.id written { w with store })
  | (r, store) => (r, { w with store })

/-- Removes a resource and calls the listeners. -/
def delete (call : Call) (id : ResourceId) (w : LiveStore) : Except Error Unit × LiveStore :=
  match w.store.delete id with
  | .ok (obj, store) => (.ok (), notify call .deleted id obj { w with store })
  | .error e => (.error e, w)

/-- Registers a listener, and shows it what is there. -/
def listen (call : Call) (event : StoreEvent) (listener : ListenerId) (withFlush : Bool)
    (w : LiveStore) : Except Error Unit × LiveStore :=
  let w := { w with store := w.store.register event listener }
  if withFlush ∧ event = .added then flush call listener w.store.objects w else (.ok (), w)

end LiveStore

/-- Runs a script, given how listeners are called. -/
def Script.runWith {α : Type} (call : Call) : Script α → LiveStore → Except Error α × LiveStore
  | .done x, w => (.ok x, w)
  | .fail e, w => (.error e, w)
  | .get id type next, w => (next (w.store.get id type)).runWith call w
  | .list kind next, w => (next (w.store.list kind)).runWith call w
  | .add obj next, w =>
    let (r, w) := w.add call obj
    (next r).runWith call w
  | .delete id next, w =>
    let (r, w) := w.delete call id
    (next r).runWith call w
  | .listen event listener withFlush next, w =>
    let (r, w) := w.listen call event listener withFlush
    (next r).runWith call w
  | .unlisten event listener next, w =>
    next.runWith call { w with store := w.store.unregister event listener }
  | .log level text next, w => next.runWith call (w.logged level text)

/-- Calls a listener, when listeners may still call for one another
`depth` deep. -/
def deliver (behaviour : Behaviour) : Nat → Call
  | 0, _, w => (.error (.fault .nestedTooDeep), w)
  | depth + 1, d, w =>
    (behaviour d.listener d.id d.object).runWith (deliver behaviour depth) (w.recorded d)

/-- How deep listeners may call for one another. -/
def nestingLimit : Nat := 1000

/-- Runs a script among listeners. -/
def Script.run {α : Type} (behaviour : Behaviour) (script : Script α) (w : LiveStore) :
    Except Error α × LiveStore :=
  script.runWith (deliver behaviour nestingLimit) w

end AppSynthesis
