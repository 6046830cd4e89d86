/-
AppSynthesis.Store.Script — what clients and listeners do with a store, as
data.

* `Script α` — the next request and what is done with its answer, until a
  result or an error. A script can be run on a store of its own, among
  listeners that react to its writes, or between the steps of others.
* `Script.bind`, `Script.recover` — one script after another, and after an
  error.
* `Script.addRecord` — adds a record of any type, if it is a resource.
-/
import AppSynthesis.Store.Basic

namespace AppSynthesis

/-- How urgent a line of the log is. -/
inductive LogLevel where
  | info
  | error
  deriving DecidableEq, Repr

/-- A sequence of requests to a store that ends in a result or an error.
Requests that can fail answer with their error. -/
inductive Script (α : Type) where
  | done (result : α)
  | fail (e : Error)
  | get (id : ResourceId) (type : RecordType)
      (next : Except Error (Option Resource) → Script α)
  | list (kind : Option String) (next : List Resource → Script α)
  | add (obj : Resource) (next : Except Error Receipt → Script α)
  | delete (id : ResourceId) (next : Except Error Unit → Script α)
  /-- Registers a listener; with `flush` it is called at once for each
  resource that is there. -/
  | listen (event : StoreEvent) (listener : ListenerId) (flush : Bool)
      (next : Except Error Unit → Script α)
  | unlisten (event : StoreEvent) (listener : ListenerId) (next : Script α)
  | log (level : LogLevel) (text : String) (next : Script α)

namespace Script

/-- A script, and then one that depends on its result. -/
def bind {α β : Type} (s : Script α) (f : α → Script β) : Script β :=
  match s with
  | .done x => f x
  | .fail e => .fail e
  | .get id type next => .get id type fun r => (next r).bind f
  | .list kind next => .list kind fun r => (next r).bind f
  | .add obj next => .add obj fun r => (next r).bind f
  | .delete id next => .delete id fun r => (next r).bind f
  | .listen event listener flush next => .listen event listener flush fun r => (next r).bind f
  | .unlisten event listener next => .unlisten event listener (next.bind f)
  | .log level text next => .log level text (next.bind f)

/-- A script, and another in place of an error that ends it. -/
def recover {α : Type} (s : Script α) (f : Error → Script α) : Script α :=
  match s with
  | .done x => .done x
  | .fail e => f e
  | .get id type next => .get id type fun r => (next r).recover f
  | .list kind next => .list kind fun r => (next r).recover f
  | .add obj next => .add obj fun r => (next r).recover f
  | .delete id next => .delete id fun r => (next r).recover f
  | .listen event listener flush next =>
    .listen event listener flush fun r => (next r).recover f
  | .unlisten event listener next => .unlisten event listener (next.recover f)
  | .log level text next => .log level text (next.recover f)

instance : Monad Script where
  pure := .done
  bind := Script.bind

/-- The result of a computation, or its error. -/
def ofExcept {α : Type} : Except Error α → Script α
  | .ok x => .done x
  | .error e => .fail e

/-- Adds a record, which has to be a resource. -/
def addRecord (r : Option Record) : Script Receipt :=
  (ofExcept (Record.toResource r)).bind fun obj => .add obj .ofExcept

/-- One script for each item, in turn. -/
def forEach {α : Type} (items : List α) (f : α → Script Unit) : Script Unit :=
  match items with
  | [] => .done ()
  | x :: rest => (f x).bind fun _ => forEach rest f

end Script

end AppSynthesis
