/-
AppSynthesis.Proofs.Store.CallTree — which request of a run led to which calls of listeners.

* `Requests`, `Calls` — the requests of a script in turn, each with the calls that it led to,
  and these calls in turn, each with the requests that the listener made inside.
* `Script.requests` — the tree of a run.
* `Script.runWith_changes`, `Script.runWith_deliveries` — the run leads to the store after the
  changes of its tree and makes the calls of its tree, the latter if none is too deep.
* `Requests.Every` — that each request of a tree has a property, with the store right before
  it.

The tree is read off the interpreter as the changes are in
`AppSynthesis.Proofs.Store.Journal`: `Script.requestsWith` follows `Script.runWith` request by
request, and `reactRequests` follows `react` depth by depth. Its changes in turn are those
changes, so what is known of these carries over (`Script.requests_changes`).
-/
import AppSynthesis.Proofs.Store.Journal

namespace AppSynthesis

open Store (Change)

/-! ## Trees -/

mutual

/-- The requests of a script that may change the store, in turn, each with the calls to
listeners that it led to. -/
inductive Requests where
  | done
  /-- The listener was not called: too many calls were going on. -/
  | tooDeep
  | next (c : Change) (calls : Calls) (rest : Requests)

/-- Calls to listeners in turn, each with the requests of the listener. -/
inductive Calls where
  | done
  | next (d : Delivery) (inside : Requests) (rest : Calls)

end

/-- The calls themselves, in order. -/
def Calls.made : Calls → List Delivery
  | .done => []
  | .next d _ rest => d :: rest.made

mutual

/-- The changes that are asked for, in order. -/
def Requests.changes : Requests → List Change
  | .done => []
  | .tooDeep => []
  | .next c calls rest => c :: calls.changes ++ rest.changes

/-- The changes that are asked for inside calls, in order. -/
def Calls.changes : Calls → List Change
  | .done => []
  | .next _ inside rest => inside.changes ++ rest.changes

end

mutual

/-- All calls to listeners, in the order in which they began. -/
def Requests.deliveries : Requests → List Delivery
  | .done => []
  | .tooDeep => []
  | .next _ calls rest => calls.deliveries ++ rest.deliveries

/-- The calls and all calls inside them, in the order in which they began. -/
def Calls.deliveries : Calls → List Delivery
  | .done => []
  | .next d inside rest => d :: inside.deliveries ++ rest.deliveries

end

mutual

/-- Whether every listener that was to be called was called. -/
def Requests.complete : Requests → Bool
  | .done => true
  | .tooDeep => false
  | .next _ calls rest => calls.complete && rest.complete

/-- Whether this holds inside all calls. -/
def Calls.complete : Calls → Bool
  | .done => true
  | .next _ inside rest => inside.complete && rest.complete

end

/-! ## The tree of a run -/

/-- The requests that a call to a listener makes. -/
abbrev Inside := Delivery → LiveStore → Requests

/-- The changes that a call to a listener makes. -/
def Inside.effects (inside : Inside) : Effects := fun d w => (inside d w).changes

section

variable (call : Call) (inside : Inside)

/-- The calls to listeners in turn about an event. -/
def notifyCalls (event : StoreEvent) (id : ResourceId) (obj : Resource) :
    List ListenerId → LiveStore → Calls
  | [], _ => .done
  | listener :: rest, w =>
    .next ⟨listener, event, true, id, obj⟩ (inside ⟨listener, event, true, id, obj⟩ w)
      (notifyCalls event id obj rest (notifyOne call ⟨listener, event, true, id, obj⟩ w))

/-- The calls that show a new listener resources in turn. -/
def flushCalls (listener : ListenerId) : List (ResourceId × Resource) → LiveStore → Calls
  | [], _ => .done
  | (id, obj) :: rest, w =>
    .next ⟨listener, .added, false, id, obj⟩ (inside ⟨listener, .added, false, id, obj⟩ w)
      (match call ⟨listener, .added, false, id, obj⟩ w with
        | (.ok _, w) => flushCalls listener rest w
        | (.error _, _) => .done)

namespace LiveStore

/-- The calls that an addition leads to. -/
def addCalls (obj : Resource) (w : LiveStore) : Calls :=
  match w.store.add obj with
  | (.ok (.stored written), store) =>
    notifyCalls call inside .added obj.id written (store.listeners .added) { w with store }
  | _ => .done

/-- The calls that a removal leads to. -/
def deleteCalls (id : ResourceId) (w : LiveStore) : Calls :=
  match w.store.delete id with
  | .ok (obj, store) =>
    notifyCalls call inside .deleted id obj (store.listeners .deleted) { w with store }
  | .error _ => .done

/-- The calls that a registration leads to. -/
def listenCalls (event : StoreEvent) (listener : ListenerId) (withFlush : Bool)
    (w : LiveStore) : Calls :=
  let w := { w with store := w.store.register event listener }
  if withFlush ∧ event = .added then flushCalls call inside listener w.store.objects w else .done

end LiveStore

/-- The requests of a script, given those that calls to listeners make. -/
def Script.requestsWith {α : Type} : Script α → LiveStore → Requests
  | .done _, _ => .done
  | .fail _, _ => .done
  | .get id type next, w => (next (w.store.get id type)).requestsWith w
  | .list kind next, w => (next (w.store.list kind)).requestsWith w
  | .add obj next, w =>
    .next (.add obj) (w.addCalls call inside obj)
      ((next (w.add call obj).1).requestsWith (w.add call obj).2)
  | .delete id next, w =>
    .next (.delete id) (w.deleteCalls call inside id)
      ((next (w.delete call id).1).requestsWith (w.delete call id).2)
  | .listen event listener withFlush next, w =>
    .next (.register event listener) (w.listenCalls call inside event listener withFlush)
      ((next (w.listen call event listener withFlush).1).requestsWith
        (w.listen call event listener withFlush).2)
  | .unlisten event listener next, w =>
    .next (.unregister event listener) .done
      (next.requestsWith { w with store := w.store.unregister event listener })
  | .log level text next, w => next.requestsWith (w.logged level text)

end

/-- The requests that a call to a listener makes, when listeners may still call for one
another `depth` deep. -/
def reactRequests (reaction : Reaction) : Nat → Inside
  | 0, _, _ => .tooDeep
  | depth + 1, d, w =>
    (reaction d w.deliveries).requestsWith (react reaction depth) (reactRequests reaction depth)
      (w.recorded d)

/-- The requests of a script among listeners that may call for one another `depth` deep. -/
def Script.requests {α : Type} (reaction : Reaction) (depth : Nat) (script : Script α)
    (w : LiveStore) : Requests :=
  script.requestsWith (react reaction depth) (reactRequests reaction depth) w

/-! ## The changes of a tree -/

section

variable (call : Call) (inside : Inside)

theorem notifyCalls_changes (event : StoreEvent) (id : ResourceId) (obj : Resource) :
    ∀ (listeners : List ListenerId) (w : LiveStore),
      (notifyCalls call inside event id obj listeners w).changes =
        notifyChanges call inside.effects event id obj listeners w
  | [], _ => rfl
  | listener :: rest, w => by
    rw [notifyCalls, Calls.changes, notifyCalls_changes event id obj rest]
    rfl

theorem flushCalls_changes (listener : ListenerId) :
    ∀ (objects : List (ResourceId × Resource)) (w : LiveStore),
      (flushCalls call inside listener objects w).changes =
        flushChanges call inside.effects listener objects w
  | [], _ => rfl
  | (id, obj) :: rest, w => by
    rw [flushCalls, Calls.changes, flushChanges]
    congr 1
    rcases call ⟨listener, .added, false, id, obj⟩ w with ⟨e | _, w'⟩
    · rfl
    · exact flushCalls_changes listener rest w'

theorem LiveStore.addCalls_changes (obj : Resource) (w : LiveStore) :
    .add obj :: (w.addCalls call inside obj).changes = w.addChanges call inside.effects obj := by
  unfold addCalls addChanges
  rcases w.store.add obj with ⟨e | (_ | written), t⟩
  · rfl
  · rfl
  · exact congrArg _ (notifyCalls_changes call inside _ _ _ _ _)

theorem LiveStore.deleteCalls_changes (id : ResourceId) (w : LiveStore) :
    .delete id :: (w.deleteCalls call inside id).changes =
      w.deleteChanges call inside.effects id := by
  unfold deleteCalls deleteChanges
  rcases w.store.delete id with e | ⟨obj, t⟩
  · rfl
  · exact congrArg _ (notifyCalls_changes call inside _ _ _ _ _)

theorem LiveStore.listenCalls_changes (event : StoreEvent) (listener : ListenerId)
    (withFlush : Bool) (w : LiveStore) :
    .register event listener :: (w.listenCalls call inside event listener withFlush).changes =
      w.listenChanges call inside.effects event listener withFlush := by
  unfold listenCalls listenChanges
  dsimp only
  split
  · exact congrArg _ (flushCalls_changes call inside _ _ _)
  · rfl

/-- The changes of the tree are those of the script. -/
theorem Script.requestsWith_changes {α : Type} (script : Script α) (w : LiveStore) :
    (script.requestsWith call inside w).changes = script.changesWith call inside.effects w := by
  induction script generalizing w with
  | done x => rfl
  | fail e => rfl
  | get id type next ih => exact ih _ w
  | list kind next ih => exact ih _ w
  | add obj next ih =>
    rw [requestsWith, Requests.changes, LiveStore.addCalls_changes, ih, changesWith]
  | delete id next ih =>
    rw [requestsWith, Requests.changes, LiveStore.deleteCalls_changes, ih, changesWith]
  | listen event listener withFlush next ih =>
    rw [requestsWith, Requests.changes, LiveStore.listenCalls_changes, ih, changesWith]
  | unlisten event listener next ih => exact congrArg _ (ih _)
  | log level text next ih => exact ih _

end

/-- However deep listeners call for one another, the changes of the trees are theirs. -/
theorem reactRequests_effects (reaction : Reaction) :
    ∀ depth, (reactRequests reaction depth).effects = reactChanges reaction depth
  | 0 => rfl
  | depth + 1 => by
    funext d w
    rw [Inside.effects, reactRequests, reactChanges, Script.requestsWith_changes,
      reactRequests_effects reaction depth]

theorem reactRequests_of (reaction : Reaction) (depth : Nat) :
    (reactRequests reaction depth).effects.Of (react reaction depth) := by
  rw [reactRequests_effects]
  exact reactChanges_of reaction depth

/-- The changes of the tree of a run are those of the run, in the same order. -/
theorem Script.requests_changes (reaction : Reaction) (depth : Nat) {α : Type}
    (script : Script α) (w : LiveStore) :
    (script.requests reaction depth w).changes = script.changes reaction depth w := by
  rw [requests, requestsWith_changes, reactRequests_effects, changes]

/-- **The run leads to the store after the changes of its tree.** -/
theorem Script.runWith_changes (reaction : Reaction) (depth : Nat) {α : Type} (script : Script α)
    (w : LiveStore) :
    (script.runWith (react reaction depth) w).2.store =
      w.store.after (script.requests reaction depth w).changes := by
  rw [requests_changes]
  exact script.react_after reaction depth w

/-! ## The calls of a tree -/

/-- A call is recorded, and so are the calls inside it. -/
def Inside.Records (inside : Inside) (call : Call) : Prop :=
  ∀ d w, (inside d w).complete = true →
    (call d w).2.deliveries = w.deliveries ++ d :: (inside d w).deliveries

theorem notifyOne_deliveries (call : Call) (d : Delivery) (w : LiveStore) :
    (notifyOne call d w).deliveries = (call d w).2.deliveries := by
  unfold notifyOne
  rcases call d w with ⟨_ | _, _⟩ <;> rfl

section

variable {call : Call} {inside : Inside}

theorem notifyCalls_records (h : inside.Records call) (event : StoreEvent) (id : ResourceId)
    (obj : Resource) : ∀ (listeners : List ListenerId) (w : LiveStore),
      (notifyCalls call inside event id obj listeners w).complete = true →
      (listeners.foldl (fun w l => notifyOne call ⟨l, event, true, id, obj⟩ w) w).deliveries =
        w.deliveries ++ (notifyCalls call inside event id obj listeners w).deliveries
  | [], _, _ => (List.append_nil _).symm
  | listener :: rest, w, hcomplete => by
    rw [notifyCalls, Calls.complete, Bool.and_eq_true] at hcomplete
    rw [List.foldl_cons, notifyCalls_records h event id obj rest _ hcomplete.2,
      notifyOne_deliveries, h _ w hcomplete.1, notifyCalls, Calls.deliveries, List.append_assoc]

theorem flushCalls_records (h : inside.Records call) (listener : ListenerId) :
    ∀ (objects : List (ResourceId × Resource)) (w : LiveStore),
      (flushCalls call inside listener objects w).complete = true →
      (flush call listener objects w).2.deliveries =
        w.deliveries ++ (flushCalls call inside listener objects w).deliveries
  | [], _, _ => (List.append_nil _).symm
  | (id, obj) :: rest, w, hcomplete => by
    rw [flushCalls, Calls.complete, Bool.and_eq_true] at hcomplete
    have hcall := h ⟨listener, .added, false, id, obj⟩ w hcomplete.1
    rw [flush, flushCalls, Calls.deliveries, ← List.append_assoc, ← hcall]
    rcases hr : call ⟨listener, .added, false, id, obj⟩ w with ⟨e | _, w'⟩
    · exact (List.append_nil _).symm
    · rw [hr] at hcomplete
      exact flushCalls_records h listener rest w' hcomplete.2

namespace LiveStore

theorem addCalls_records (h : inside.Records call) (obj : Resource) (w : LiveStore)
    (hcomplete : (w.addCalls call inside obj).complete = true) :
    (w.add call obj).2.deliveries = w.deliveries ++ (w.addCalls call inside obj).deliveries := by
  unfold addCalls LiveStore.add at *
  rcases hadd : w.store.add obj with ⟨e | (_ | written), t⟩
  · exact (List.append_nil _).symm
  · exact (List.append_nil _).symm
  · rw [hadd] at hcomplete
    exact notifyCalls_records h _ _ _ _ { w with store := t } hcomplete

theorem deleteCalls_records (h : inside.Records call) (id : ResourceId) (w : LiveStore)
    (hcomplete : (w.deleteCalls call inside id).complete = true) :
    (w.delete call id).2.deliveries =
      w.deliveries ++ (w.deleteCalls call inside id).deliveries := by
  unfold deleteCalls LiveStore.delete at *
  rcases hdelete : w.store.delete id with e | ⟨obj, t⟩
  · exact (List.append_nil _).symm
  · rw [hdelete] at hcomplete
    exact notifyCalls_records h _ _ _ _ { w with store := t } hcomplete

theorem listenCalls_records (h : inside.Records call) (event : StoreEvent)
    (listener : ListenerId) (withFlush : Bool) (w : LiveStore)
    (hcomplete : (w.listenCalls call inside event listener withFlush).complete = true) :
    (w.listen call event listener withFlush).2.deliveries =
      w.deliveries ++ (w.listenCalls call inside event listener withFlush).deliveries := by
  unfold listenCalls LiveStore.listen at *
  dsimp only at *
  split
  · rename_i hflush
    rw [if_pos hflush] at hcomplete
    exact flushCalls_records h listener _ { w with store := w.store.register event listener }
      hcomplete
  · exact (List.append_nil _).symm

end LiveStore

theorem Script.requestsWith_records (h : inside.Records call) {α : Type} (script : Script α)
    (w : LiveStore) (hcomplete : (script.requestsWith call inside w).complete = true) :
    (script.runWith call w).2.deliveries =
      w.deliveries ++ (script.requestsWith call inside w).deliveries := by
  induction script generalizing w with
  | done x => exact (List.append_nil _).symm
  | fail e => exact (List.append_nil _).symm
  | get id type next ih => exact ih _ w hcomplete
  | list kind next ih => exact ih _ w hcomplete
  | add obj next ih =>
    rw [requestsWith, Requests.complete, Bool.and_eq_true] at hcomplete
    rw [requestsWith, Requests.deliveries, ← List.append_assoc,
      ← LiveStore.addCalls_records h obj w hcomplete.1]
    exact ih _ _ hcomplete.2
  | delete id next ih =>
    rw [requestsWith, Requests.complete, Bool.and_eq_true] at hcomplete
    rw [requestsWith, Requests.deliveries, ← List.append_assoc,
      ← LiveStore.deleteCalls_records h id w hcomplete.1]
    exact ih _ _ hcomplete.2
  | listen event listener withFlush next ih =>
    rw [requestsWith, Requests.complete, Bool.and_eq_true] at hcomplete
    rw [requestsWith, Requests.deliveries, ← List.append_assoc,
      ← LiveStore.listenCalls_records h event listener withFlush w hcomplete.1]
    exact ih _ _ hcomplete.2
  | unlisten event listener next ih => exact ih { w with store := _ } hcomplete
  | log level text next ih => exact ih _ hcomplete

end

/-- However deep listeners call for one another, their calls are recorded. -/
theorem reactRequests_records (reaction : Reaction) :
    ∀ depth, (reactRequests reaction depth).Records (react reaction depth)
  | 0, _, _ => nofun
  | depth + 1, d, w => fun hcomplete => by
    have hrun := Script.requestsWith_records (reactRequests_records reaction depth)
      (reaction d w.deliveries) (w.recorded d) hcomplete
    exact hrun.trans (List.append_assoc _ _ _)

/-- **The calls that a run makes are those of its tree**, in the order in which they began. -/
theorem Script.runWith_deliveries (reaction : Reaction) (depth : Nat) {α : Type}
    (script : Script α) (w : LiveStore)
    (h : (script.requests reaction depth w).complete = true) :
    (script.runWith (react reaction depth) w).2.deliveries =
      w.deliveries ++ (script.requests reaction depth w).deliveries :=
  script.requestsWith_records (reactRequests_records reaction depth) w h

/-! ## Each request of a tree -/

mutual

/-- Each request of a tree has a property, with the store right before it and the calls that
it led to. -/
def Requests.Every (P : Store → Change → Calls → Prop) : Store → Requests → Prop
  | _, .done => True
  | _, .tooDeep => True
  | s, .next c calls rest =>
    P s c calls ∧ calls.Every P (c.apply s) ∧ rest.Every P ((c.apply s).after calls.changes)

/-- Each request inside calls has a property. -/
def Calls.Every (P : Store → Change → Calls → Prop) : Store → Calls → Prop
  | _, .done => True
  | s, .next _ inside rest => inside.Every P s ∧ rest.Every P (s.after inside.changes)

end

section

variable (P : Store → Change → Calls → Prop) [∀ s c calls, Decidable (P s c calls)]

mutual

/-- Whether each request of a tree has a property. -/
def Requests.decideEvery : ∀ (s : Store) (tree : Requests), Decidable (tree.Every P s)
  | _, .done => isTrue trivial
  | _, .tooDeep => isTrue trivial
  | s, .next c calls rest =>
    @instDecidableAnd _ _ inferInstance
      (@instDecidableAnd _ _ (calls.decideEvery (c.apply s))
        (rest.decideEvery ((c.apply s).after calls.changes)))

/-- Whether each request inside calls has a property. -/
def Calls.decideEvery : ∀ (s : Store) (calls : Calls), Decidable (calls.Every P s)
  | _, .done => isTrue trivial
  | s, .next _ inside rest =>
    @instDecidableAnd _ _ (inside.decideEvery s) (rest.decideEvery (s.after inside.changes))

end

instance (s : Store) (tree : Requests) : Decidable (tree.Every P s) := tree.decideEvery P s

end

end AppSynthesis
