/-
AppSynthesis.Proofs.Store.Dispatch — who is told of a request, and what the errors of
listeners do.

* `Store.Change.Tells` — who is told of a request and what: for a write or a removal each
  listener that is registered then, once per registration and in their order.
* `Script.requests_tell` — so it is for each request of each run, also of those that listeners
  make while they are called.
* `Reaction.raising` — listeners some of whose calls about writes and removals end in errors
  instead.
* `Script.runWith_raising` — they make no difference but to the log.
* `Script.runWith_dispatch` — both, with the tree of the run in which the requests stand.

That registrations change while listeners are called makes no difference to who is called:
the calls of an event are fixed when it happens. The errors of listeners are dropped one by one
(`notifyOne`), so that two runs stay alike call by call (`Call.Agree`).
-/
import AppSynthesis.Proofs.Store.CallTree

namespace AppSynthesis

open Store (Change)

/-! ## Who is told -/

namespace Store

theorem delete_of_ok {s t : Store} {id : ResourceId} {obj : Resource}
    (h : s.delete id = .ok (obj, t)) : s.find? id = some obj ∧
      t = { s with objects := s.objects.eraseP fun e => e.1.same id } := by
  unfold delete at h
  split at h
  · cases h
  · split at h <;> cases h
    rename_i hfind
    exact ⟨hfind, rfl⟩

/-- The calls that tell the listeners of an event: one per registration, in their order. -/
def told (s : Store) (event : StoreEvent) (id : ResourceId) (obj : Resource) : List Delivery :=
  (s.listeners event).map fun listener => ⟨listener, event, true, id, obj⟩

/-- The calls that a request leads to, without those inside them. -/
inductive Change.Tells (s : Store) : Change → List Delivery → Prop
  /-- What was written is what the listeners are told. -/
  | stored {obj written : Resource} (answer : (s.add obj).1 = .ok (.stored written))
    (put : ((Change.add obj).apply s).objects = place obj.id written s.objects) :
    Tells s (.add obj) (((Change.add obj).apply s).told .added obj.id written)
  | unchanged {obj : Resource} (answer : (s.add obj).1 = .ok .unchanged)
    (kept : (Change.add obj).apply s = s) : Tells s (.add obj) []
  | refused {obj : Resource} {e : Error} (answer : (s.add obj).1 = .error e)
    (objects : ((Change.add obj).apply s).objects = s.objects)
    (revision : ((Change.add obj).apply s).revision = s.revision)
    (registrations : ((Change.add obj).apply s).registrations = s.registrations) :
    Tells s (.add obj) []
  /-- What was found is what the listeners are told, and it is taken away. -/
  | deleted {id : ResourceId} {obj : Resource} (found : s.find? id = some obj)
    (taken : ((Change.delete id).apply s).objects = s.objects.eraseP fun e => e.1.same id) :
    Tells s (.delete id) (((Change.delete id).apply s).told .deleted id obj)
  | missing {id : ResourceId} {e : Error} (answer : s.delete id = .error e)
    (kept : (Change.delete id).apply s = s) : Tells s (.delete id) []
  /-- Only the new listener is shown what is there, as far as it makes no error. -/
  | registered {event : StoreEvent} {listener : ListenerId} {made : List Delivery}
    (shown : made <+: s.objects.map fun e => ⟨listener, .added, false, e.1, e.2⟩) :
    Tells s (.register event listener) made
  | unregistered {event : StoreEvent} {listener : ListenerId} :
    Tells s (.unregister event listener) []

end Store

/-- Each request of a tree tells its listeners. -/
abbrev Requests.Tell (s : Store) (tree : Requests) : Prop :=
  tree.Every (fun s c calls => c.Tells s calls.made) s

/-- Each request inside calls tells its listeners. -/
abbrev Calls.Tell (s : Store) (calls : Calls) : Prop :=
  calls.Every (fun s c calls => c.Tells s calls.made) s

section

variable {call : Call} {inside : Inside}

theorem notifyCalls_made (event : StoreEvent) (id : ResourceId) (obj : Resource) :
    ∀ (listeners : List ListenerId) (w : LiveStore),
      (notifyCalls call inside event id obj listeners w).made =
        listeners.map fun listener => ⟨listener, event, true, id, obj⟩
  | [], _ => rfl
  | _ :: rest, _ => congrArg _ (notifyCalls_made event id obj rest _)

theorem flushCalls_made (listener : ListenerId) :
    ∀ (objects : List (ResourceId × Resource)) (w : LiveStore),
      (flushCalls call inside listener objects w).made <+:
        objects.map fun e => ⟨listener, .added, false, e.1, e.2⟩
  | [], _ => List.prefix_refl _
  | (id, obj) :: rest, w => by
    rw [flushCalls, Calls.made, List.map_cons, List.cons_prefix_cons]
    refine ⟨rfl, ?_⟩
    rcases call ⟨listener, .added, false, id, obj⟩ w with ⟨e | _, w'⟩
    · exact List.nil_prefix
    · exact flushCalls_made listener rest w'

namespace LiveStore

theorem addCalls_tells (obj : Resource) (w : LiveStore) :
    (Change.add obj).Tells w.store (w.addCalls call inside obj).made := by
  unfold addCalls
  rcases hadd : w.store.add obj with ⟨e | (_ | written), t⟩
  · obtain ⟨hobjects, hrevision, hregistrations⟩ := Store.add_of_error hadd
    have ht : (Change.add obj).apply w.store = t := congrArg Prod.snd hadd
    exact .refused (congrArg Prod.fst hadd) (ht ▸ hobjects) (ht ▸ hrevision)
      (ht ▸ hregistrations)
  · have ht : (Change.add obj).apply w.store = t := congrArg Prod.snd hadd
    exact .unchanged (congrArg Prod.fst hadd) (ht.trans (Store.add_of_unchanged hadd))
  · have ht : (Change.add obj).apply w.store = t := congrArg Prod.snd hadd
    obtain ⟨rfl, hwrite⟩ := Store.add_of_stored hadd
    rw [notifyCalls_made]
    have htells := Change.Tells.stored (congrArg Prod.fst hadd)
      (congrArg Store.objects (ht.trans hwrite))
    rwa [ht] at htells

theorem deleteCalls_tells (id : ResourceId) (w : LiveStore) :
    (Change.delete id).Tells w.store (w.deleteCalls call inside id).made := by
  unfold deleteCalls
  rcases hdelete : w.store.delete id with e | ⟨obj, t⟩
  · refine .missing hdelete ?_
    rw [Change.apply, hdelete]
  · have ht : (Change.delete id).apply w.store = t := by rw [Change.apply, hdelete]
    obtain ⟨hfind, hwrite⟩ := Store.delete_of_ok hdelete
    rw [notifyCalls_made]
    have htells := Change.Tells.deleted hfind (congrArg Store.objects (ht.trans hwrite))
    rwa [ht] at htells

theorem listenCalls_tells (event : StoreEvent) (listener : ListenerId) (withFlush : Bool)
    (w : LiveStore) : (Change.register event listener).Tells w.store
      (w.listenCalls call inside event listener withFlush).made := by
  unfold listenCalls
  dsimp only
  split
  · exact .registered (flushCalls_made listener w.store.objects _)
  · exact .registered List.nil_prefix

end LiveStore

/-- Each request inside a call tells its listeners. -/
def Inside.Tell (inside : Inside) : Prop := ∀ d w, (inside d w).Tell w.store

theorem notifyCalls_tell (hof : inside.effects.Of call) (h : inside.Tell) (event : StoreEvent)
    (id : ResourceId) (obj : Resource) :
    ∀ (listeners : List ListenerId) (w : LiveStore),
      (notifyCalls call inside event id obj listeners w).Tell w.store
  | [], _ => trivial
  | listener :: rest, w => by
    have hstore := notifyOne_after hof ⟨listener, event, true, id, obj⟩ w
    exact ⟨h _ w, hstore ▸ notifyCalls_tell hof h event id obj rest _⟩

theorem flushCalls_tell (hof : inside.effects.Of call) (h : inside.Tell)
    (listener : ListenerId) : ∀ (objects : List (ResourceId × Resource)) (w : LiveStore),
      (flushCalls call inside listener objects w).Tell w.store
  | [], _ => trivial
  | (id, obj) :: rest, w => by
    have hstore := hof ⟨listener, .added, false, id, obj⟩ w
    refine ⟨h _ w, ?_⟩
    rcases hcall : call ⟨listener, .added, false, id, obj⟩ w with ⟨e | _, w'⟩
    · trivial
    · rw [hcall] at hstore
      exact hstore ▸ flushCalls_tell hof h listener rest w'

namespace LiveStore

theorem addCalls_tell (hof : inside.effects.Of call) (h : inside.Tell) (obj : Resource)
    (w : LiveStore) : (w.addCalls call inside obj).Tell ((Change.add obj).apply w.store) := by
  unfold addCalls
  rw [Change.apply]
  rcases w.store.add obj with ⟨e | (_ | written), t⟩
  · trivial
  · trivial
  · exact notifyCalls_tell hof h _ _ _ _ { w with store := t }

theorem deleteCalls_tell (hof : inside.effects.Of call) (h : inside.Tell) (id : ResourceId)
    (w : LiveStore) : (w.deleteCalls call inside id).Tell ((Change.delete id).apply w.store) := by
  unfold deleteCalls
  rw [Change.apply]
  rcases w.store.delete id with e | ⟨obj, t⟩
  · trivial
  · exact notifyCalls_tell hof h _ _ _ _ { w with store := t }

theorem listenCalls_tell (hof : inside.effects.Of call) (h : inside.Tell) (event : StoreEvent)
    (listener : ListenerId) (withFlush : Bool) (w : LiveStore) :
    (w.listenCalls call inside event listener withFlush).Tell
      ((Change.register event listener).apply w.store) := by
  unfold listenCalls
  dsimp only
  split
  · exact flushCalls_tell hof h listener _ { w with store := w.store.register event listener }
  · trivial

end LiveStore

/-- Each request of a script tells its listeners, if those inside calls do. -/
theorem Script.requestsWith_tell (hof : inside.effects.Of call) (h : inside.Tell) {α : Type}
    (script : Script α) (w : LiveStore) : (script.requestsWith call inside w).Tell w.store := by
  induction script generalizing w with
  | done x => trivial
  | fail e => trivial
  | get id type next ih => exact ih _ w
  | list kind next ih => exact ih _ w
  | add obj next ih =>
    refine ⟨LiveStore.addCalls_tells obj w, LiveStore.addCalls_tell hof h obj w, ?_⟩
    have hstore := LiveStore.add_after hof obj w
    rw [← LiveStore.addCalls_changes, Store.after_cons] at hstore
    exact hstore ▸ ih _ _
  | delete id next ih =>
    refine ⟨LiveStore.deleteCalls_tells id w, LiveStore.deleteCalls_tell hof h id w, ?_⟩
    have hstore := LiveStore.delete_after hof id w
    rw [← LiveStore.deleteCalls_changes, Store.after_cons] at hstore
    exact hstore ▸ ih _ _
  | listen event listener withFlush next ih =>
    refine ⟨LiveStore.listenCalls_tells event listener withFlush w,
      LiveStore.listenCalls_tell hof h event listener withFlush w, ?_⟩
    have hstore := LiveStore.listen_after hof event listener withFlush w
    rw [← LiveStore.listenCalls_changes, Store.after_cons] at hstore
    exact hstore ▸ ih _ _
  | unlisten event listener next ih => exact ⟨.unregistered, trivial, ih { w with store := _ }⟩
  | log level text next ih => exact ih (w.logged level text)

end

/-- However deep listeners call for one another, each of their requests tells its listeners. -/
theorem reactRequests_tell (reaction : Reaction) :
    ∀ depth, (reactRequests reaction depth).Tell
  | 0, _, _ => trivial
  | depth + 1, d, w =>
    Script.requestsWith_tell (reactRequests_of reaction depth) (reactRequests_tell reaction depth)
      (reaction d w.deliveries) (w.recorded d)

/-- **Each request of a run tells its listeners.** -/
theorem Script.requests_tell (reaction : Reaction) (depth : Nat) {α : Type} (script : Script α)
    (w : LiveStore) : (script.requests reaction depth w).Tell w.store :=
  script.requestsWith_tell (reactRequests_of reaction depth) (reactRequests_tell reaction depth) w

/-! ## Errors of listeners -/

/-- The listeners, some of whose calls about writes and removals end in an error: those for
which `raises` gives one. -/
def Reaction.raising (reaction : Reaction) (raises : Delivery → List Delivery → Option Error) :
    Reaction := fun d before =>
  match d.fired, raises d before with
  | true, some e => (reaction d before).bind fun _ => .fail e
  | _, _ => reaction d before

/-- Live stores that differ in their logs only. -/
structure LiveStore.Agree (w w' : LiveStore) : Prop where
  store : w.store = w'.store
  deliveries : w.deliveries = w'.deliveries

/-- Calls that differ only in what they log, and in how they end when they are about a write or
a removal. -/
def Call.Agree (call call' : Call) : Prop :=
  ∀ d w w', w.Agree w' → (call d w).2.Agree (call' d w').2 ∧
    (d.fired = false → (call d w).1 = (call' d w').1)

section

variable {call call' : Call}

theorem notifyOne_agree (h : call.Agree call') (d : Delivery) {w w' : LiveStore}
    (hw : w.Agree w') : (notifyOne call d w).Agree (notifyOne call' d w') := by
  have hcall := (h d w w' hw).1
  refine ⟨?_, ?_⟩
  · rw [notifyOne_store, notifyOne_store, hcall.store]
  · rw [notifyOne_deliveries, notifyOne_deliveries, hcall.deliveries]

theorem notify_agree (h : call.Agree call') (event : StoreEvent) (id : ResourceId)
    (obj : Resource) {w w' : LiveStore} (hw : w.Agree w') :
    (notify call event id obj w).Agree (notify call' event id obj w') := by
  unfold notify
  rw [← hw.store]
  generalize w.store.listeners event = listeners
  induction listeners generalizing w w' with
  | nil => exact hw
  | cons listener rest ih => exact ih (notifyOne_agree h _ hw)

theorem flush_agree (h : call.Agree call') (listener : ListenerId) :
    ∀ (objects : List (ResourceId × Resource)) {w w' : LiveStore}, w.Agree w' →
      (flush call listener objects w).1 = (flush call' listener objects w').1 ∧
        (flush call listener objects w).2.Agree (flush call' listener objects w').2
  | [], _, _, hw => ⟨rfl, hw⟩
  | (id, obj) :: rest, w, w', hw => by
    obtain ⟨hagree, hresult⟩ := h ⟨listener, .added, false, id, obj⟩ w w' hw
    rcases hcall : call ⟨listener, .added, false, id, obj⟩ w with ⟨r, v⟩
    rcases hcall' : call' ⟨listener, .added, false, id, obj⟩ w' with ⟨r', v'⟩
    rw [hcall, hcall'] at hagree hresult
    obtain rfl : r = r' := hresult rfl
    rw [flush, flush, hcall, hcall']
    cases r with
    | ok _ => exact flush_agree h listener rest hagree
    | error e => exact ⟨rfl, hagree⟩

namespace LiveStore

theorem add_agree (h : call.Agree call') (obj : Resource) {w w' : LiveStore} (hw : w.Agree w') :
    (w.add call obj).1 = (w'.add call' obj).1 ∧
      (w.add call obj).2.Agree (w'.add call' obj).2 := by
  unfold LiveStore.add
  rw [← hw.store]
  rcases w.store.add obj with ⟨e | (_ | written), t⟩
  · exact ⟨rfl, rfl, hw.deliveries⟩
  · exact ⟨rfl, rfl, hw.deliveries⟩
  · exact ⟨rfl, notify_agree h _ _ _ ⟨rfl, hw.deliveries⟩⟩

theorem delete_agree (h : call.Agree call') (id : ResourceId) {w w' : LiveStore}
    (hw : w.Agree w') : (w.delete call id).1 = (w'.delete call' id).1 ∧
      (w.delete call id).2.Agree (w'.delete call' id).2 := by
  unfold LiveStore.delete
  rw [← hw.store]
  rcases w.store.delete id with e | ⟨obj, t⟩
  · exact ⟨rfl, hw⟩
  · exact ⟨rfl, notify_agree h _ _ _ ⟨rfl, hw.deliveries⟩⟩

theorem listen_agree (h : call.Agree call') (event : StoreEvent) (listener : ListenerId)
    (withFlush : Bool) {w w' : LiveStore} (hw : w.Agree w') :
    (w.listen call event listener withFlush).1 = (w'.listen call' event listener withFlush).1 ∧
      (w.listen call event listener withFlush).2.Agree
        (w'.listen call' event listener withFlush).2 := by
  unfold LiveStore.listen
  rw [← hw.store]
  dsimp only
  split
  · exact flush_agree h listener _ ⟨rfl, hw.deliveries⟩
  · exact ⟨rfl, rfl, hw.deliveries⟩

/-- Runs that go on from the same answer agree when those after each answer do. -/
theorem agree_next {α β : Type} {f g : Except Error β → LiveStore → Except Error α × LiveStore}
    (h : ∀ r {v v' : LiveStore}, v.Agree v' → (f r v).1 = (g r v').1 ∧ (f r v).2.Agree (g r v').2)
    {p p' : Except Error β × LiveStore} (hp : p.1 = p'.1 ∧ p.2.Agree p'.2) :
    (f p.1 p.2).1 = (g p'.1 p'.2).1 ∧ (f p.1 p.2).2.Agree (g p'.1 p'.2).2 := by
  rw [hp.1]
  exact h p'.1 hp.2

end LiveStore

/-- What a script comes to does not hang on the log. -/
theorem Script.runWith_agree (h : call.Agree call') {α : Type} (script : Script α)
    {w w' : LiveStore} (hw : w.Agree w') :
    (script.runWith call w).1 = (script.runWith call' w').1 ∧
      (script.runWith call w).2.Agree (script.runWith call' w').2 := by
  induction script generalizing w w' with
  | done x => exact ⟨rfl, hw⟩
  | fail e => exact ⟨rfl, hw⟩
  | get id type next ih =>
    rw [runWith, runWith, ← hw.store]
    exact ih _ hw
  | list kind next ih =>
    rw [runWith, runWith, ← hw.store]
    exact ih _ hw
  | add obj next ih =>
    have hnext := LiveStore.agree_next ih (LiveStore.add_agree h obj hw)
    exact hnext
  | delete id next ih =>
    have hnext := LiveStore.agree_next ih (LiveStore.delete_agree h id hw)
    exact hnext
  | listen event listener withFlush next ih =>
    have hnext := LiveStore.agree_next ih (LiveStore.listen_agree h event listener withFlush hw)
    exact hnext
  | unlisten event listener next ih =>
    exact ih ⟨congrArg (·.unregister event listener) hw.store, hw.deliveries⟩
  | log level text next ih => exact ih ⟨hw.store, hw.deliveries⟩

end

/-- What a listener does is as before, or it is an error about a write or a removal that comes
after what was done before. -/
theorem Reaction.raising_cases (reaction : Reaction)
    (raises : Delivery → List Delivery → Option Error) (d : Delivery) (before : List Delivery) :
    reaction.raising raises d before = reaction d before ∨
      d.fired = true ∧ ∃ e, reaction.raising raises d before =
        (reaction d before).bind fun _ => .fail e := by
  unfold raising
  rcases hfired : d.fired with _ | _
  · exact Or.inl rfl
  · rcases raises d before with _ | e
    · exact Or.inl rfl
    · exact Or.inr ⟨rfl, e, rfl⟩

/-- Listeners that end in errors leave the same store and make the same calls. -/
theorem react_raising (reaction : Reaction) (raises : Delivery → List Delivery → Option Error)
    (depth : Nat) : (react reaction depth).Agree (react (reaction.raising raises) depth) := by
  induction depth with
  | zero => exact fun d w w' hw => ⟨hw, fun _ => rfl⟩
  | succ depth ih =>
    intro d w w' hw
    have hrecorded : (w.recorded d).Agree (w'.recorded d) :=
      ⟨hw.store, congrArg (· ++ [d]) hw.deliveries⟩
    obtain ⟨hresult, hagree⟩ := Script.runWith_agree ih (reaction d w.deliveries) hrecorded
    rw [react, react, ← hw.deliveries]
    rcases reaction.raising_cases raises d w.deliveries with heq | ⟨hfired, e, heq⟩
    · rw [heq]
      exact ⟨hagree, fun _ => hresult⟩
    · rw [heq, Script.runWith_bind]
      refine ⟨?_, fun hshown => Bool.noConfusion (hfired.symm.trans hshown)⟩
      rcases hrun : (reaction d w.deliveries).runWith (react (reaction.raising raises) depth)
        (w'.recorded d) with ⟨_ | _, v⟩
      all_goals
        rw [hrun] at hagree
        exact hagree

/-- **Errors at the end of calls make no difference** to the result of a run, to the store, or
to the calls that are made. -/
theorem Script.runWith_raising (reaction : Reaction)
    (raises : Delivery → List Delivery → Option Error) (depth : Nat) {α : Type}
    (script : Script α) (w : LiveStore) :
    (script.runWith (react (reaction.raising raises) depth) w).1 =
        (script.runWith (react reaction depth) w).1 ∧
      (script.runWith (react (reaction.raising raises) depth) w).2.Agree
        (script.runWith (react reaction depth) w).2 := by
  obtain ⟨hresult, hagree⟩ := script.runWith_agree (react_raising reaction raises depth)
    (⟨rfl, rfl⟩ : w.Agree w)
  exact ⟨hresult.symm, hagree.store.symm, hagree.deliveries.symm⟩

/-- A record that is no resource is refused before the store is asked. -/
theorem Script.runWith_addRecord (call : Call) {r : Option Record}
    (h : r.bind Record.resource? = none) (w : LiveStore) :
    (Script.addRecord r).runWith call w = (.error (.misuse .unidentified), w) := by
  unfold addRecord Record.toResource
  rw [h]
  rfl

/-- **The listeners of a request are told of it, one after the other, and nothing they do
changes who is told.** A run in which no call is too deep comes to the store after the
requests of its tree and makes the calls of its tree. Each request of the tree, by whomever it
is made, leads to the calls that it has to. Errors at the end of calls make no difference, and
a record without an identity is refused with no effect at all. -/
theorem Script.runWith_dispatch (reaction : Reaction) (depth : Nat) {α : Type}
    (script : Script α) (w : LiveStore)
    (hcomplete : (script.requests reaction depth w).complete = true) :
    (script.runWith (react reaction depth) w).2.store =
        w.store.after (script.requests reaction depth w).changes ∧
      (script.runWith (react reaction depth) w).2.deliveries =
        w.deliveries ++ (script.requests reaction depth w).deliveries ∧
      (script.requests reaction depth w).Every (fun s c calls => c.Tells s calls.made) w.store ∧
      (∀ raises, (script.runWith (react (reaction.raising raises) depth) w).1 =
          (script.runWith (react reaction depth) w).1 ∧
        (script.runWith (react (reaction.raising raises) depth) w).2.Agree
          (script.runWith (react reaction depth) w).2) ∧
      ∀ r : Option Record, r.bind Record.resource? = none →
        (Script.addRecord r).runWith (react reaction depth) w =
          (.error (.misuse .unidentified), w) :=
  ⟨script.runWith_changes reaction depth w, script.runWith_deliveries reaction depth w hcomplete,
    script.requests_tell reaction depth w,
    fun raises => script.runWith_raising reaction raises depth w,
    fun _ h => Script.runWith_addRecord _ h w⟩

/-- A listener that writes what it is told of once more, and then fails, stands before one that
is told of removals too: of the second write both are told first. -/
theorem Script.runWith_dispatch_nested :
    ∃ (reaction : Reaction) (script : Script Unit),
      (script.requests reaction 3 {}).complete = true ∧
      ((script.runWith (react reaction 3) {}).2.deliveries.map fun d =>
        (d.listener, Store.versionOf d.object)) =
          [(0, .str "1"), (0, .str "2"), (1, .str "2"), (1, .str "1"), (1, .str "2")] ∧
      (script.runWith (react reaction 3) {}).2.store =
        Store.after {} (script.requests reaction 3 {}).changes ∧
      (script.runWith (react reaction 3) {}).2.deliveries =
        (script.requests reaction 3 {}).deliveries ∧
      (script.requests reaction 3 {}).Every (fun s c calls => c.Tells s calls.made) {} ∧
      ∀ raises, (script.runWith (react (reaction.raising raises) 3) {}).2.Agree
        (script.runWith (react reaction 3) {}).2 := by
  let web : App := { name := .str "web", ns := .str "apps", spec := {} }
  let reaction : Reaction := fun d before =>
    if before.isEmpty then
      d.object.app?.elim (.done ()) fun x =>
        .add (.app { x with labels := .map none [(.str "seen", .bool true)] }) fun _ =>
          .fail (.fault .noMember)
    else .done ()
  let script : Script Unit :=
    .listen .added 0 false fun _ => .listen .added 1 false fun _ =>
      .listen .deleted 1 false fun _ => .add (.app web) fun _ =>
        .delete (Resource.app web).id .ofExcept
  have hcomplete : (script.requests reaction 3 {}).complete = true := by decide +kernel
  obtain ⟨hstore, hcalls, htell, hraising, _⟩ :=
    script.runWith_dispatch reaction 3 {} hcomplete
  exact ⟨reaction, script, hcomplete, by decide +kernel, hstore, hcalls, htell,
    fun raises => (hraising raises).2⟩

end AppSynthesis
