/-
AppSynthesis.Proofs.Store.Journal — the changes of a run, one after the other, and
what holds of the store after each of them.

* `Reaction`, `react` — listeners that decide by all calls made so far, and how they are
  called; `deliver_eq_react`, those of a `Behaviour` are such listeners.
* `Script.changes` — the changes that a run makes, in the order in which they are made:
  a write comes before those that its listeners make about it, and these before what
  the script does next.
* `Script.react_after` — the run leads to the store after these changes.
* `Store.journal` — the Apps that changes write, in order.
* `Store.Represents` — what a store and the Apps written to it so far have to do with
  each other, and `Store.after_represents`, that this holds after any changes.
* `run_represents` — so it holds at every moment of every run, also while listeners are
  still being called about a write.

The changes are read off the interpreter: `Script.changesWith` follows
`Script.runWith` request by request, and `reactChanges` follows `react` depth by
depth. What carries the result is that one change keeps a store sound and adds to its
history what it writes (`Store.Sound.apply`, `Store.History.apply`); nesting makes no
difference to a list of changes.
-/
import AppSynthesis.Proofs.Store.Runs

namespace AppSynthesis

open Store (Change)

/-! ## Listeners with a memory -/

/-- What each listener does when it is called, after the calls that were made before. -/
abbrev Reaction := Delivery → List Delivery → Script Unit

/-- Calls a listener, when listeners may still call for one another `depth` deep. -/
def react (reaction : Reaction) : Nat → Call
  | 0, _, w => (.error (.fault .nestedTooDeep), w)
  | depth + 1, d, w =>
    (reaction d w.deliveries).runWith (react reaction depth) (w.recorded d)

/-- Listeners that do not heed the calls made before. -/
def Behaviour.reaction (behaviour : Behaviour) : Reaction :=
  fun d _ => behaviour d.listener d.id d.object

theorem deliver_eq_react (behaviour : Behaviour) :
    ∀ depth, deliver behaviour depth = react behaviour.reaction depth
  | 0 => rfl
  | depth + 1 => by
    funext d w
    rw [deliver, react, deliver_eq_react behaviour depth]
    rfl

/-! ## The changes of a run -/

/-- The changes that a call to a listener makes. -/
abbrev Effects := Delivery → LiveStore → List Change

section

variable (call : Call) (effects : Effects)

/-- The changes that listeners make when they are called in turn about an event. -/
def notifyChanges (event : StoreEvent) (id : ResourceId) (obj : Resource) :
    List ListenerId → LiveStore → List Change
  | [], _ => []
  | listener :: rest, w =>
    effects ⟨listener, event, true, id, obj⟩ w ++
      notifyChanges event id obj rest (notifyOne call ⟨listener, event, true, id, obj⟩ w)

/-- The changes that a new listener makes when it is shown resources in turn. -/
def flushChanges (listener : ListenerId) :
    List (ResourceId × Resource) → LiveStore → List Change
  | [], _ => []
  | (id, obj) :: rest, w =>
    effects ⟨listener, .added, false, id, obj⟩ w ++
      match call ⟨listener, .added, false, id, obj⟩ w with
      | (.ok _, w) => flushChanges listener rest w
      | (.error _, _) => []

namespace LiveStore

/-- An addition, and what listeners do about it. -/
def addChanges (obj : Resource) (w : LiveStore) : List Change :=
  .add obj ::
    match w.store.add obj with
    | (.ok (.stored written), store) =>
      notifyChanges call effects .added obj.id written (store.listeners .added) { w with store }
    | _ => []

/-- A removal, and what listeners do about it. -/
def deleteChanges (id : ResourceId) (w : LiveStore) : List Change :=
  .delete id ::
    match w.store.delete id with
    | .ok (obj, store) =>
      notifyChanges call effects .deleted id obj (store.listeners .deleted) { w with store }
    | .error _ => []

/-- A registration, and what the new listener does about what is there. -/
def listenChanges (event : StoreEvent) (listener : ListenerId) (withFlush : Bool)
    (w : LiveStore) : List Change :=
  let w := { w with store := w.store.register event listener }
  .register event listener ::
    if withFlush ∧ event = .added then flushChanges call effects listener w.store.objects w
    else []

end LiveStore

/-- The changes that a script makes, given those that calls to listeners make. -/
def Script.changesWith {α : Type} : Script α → LiveStore → List Change
  | .done _, _ => []
  | .fail _, _ => []
  | .get id type next, w => (next (w.store.get id type)).changesWith w
  | .list kind next, w => (next (w.store.list kind)).changesWith w
  | .add obj next, w =>
    w.addChanges call effects obj ++ (next (w.add call obj).1).changesWith (w.add call obj).2
  | .delete id next, w =>
    w.deleteChanges call effects id ++
      (next (w.delete call id).1).changesWith (w.delete call id).2
  | .listen event listener withFlush next, w =>
    w.listenChanges call effects event listener withFlush ++
      (next (w.listen call event listener withFlush).1).changesWith
        (w.listen call event listener withFlush).2
  | .unlisten event listener next, w =>
    .unregister event listener ::
      next.changesWith { w with store := w.store.unregister event listener }
  | .log level text next, w => next.changesWith (w.logged level text)

end

/-- The changes that a call to a listener makes, when listeners may still call for one
another `depth` deep. -/
def reactChanges (reaction : Reaction) : Nat → Effects
  | 0, _, _ => []
  | depth + 1, d, w =>
    (reaction d w.deliveries).changesWith (react reaction depth) (reactChanges reaction depth)
      (w.recorded d)

/-- The changes that a script makes among listeners that may call for one another `depth` deep. -/
def Script.changes {α : Type} (reaction : Reaction) (depth : Nat) (script : Script α)
    (w : LiveStore) : List Change :=
  script.changesWith (react reaction depth) (reactChanges reaction depth) w

/-! ## Where the changes lead -/

namespace Store

/-- The store after changes. -/
def after (s : Store) (changes : List Change) : Store :=
  changes.foldl (fun t c => c.apply t) s

theorem after_cons (s : Store) (c : Change) (rest : List Change) :
    s.after (c :: rest) = (c.apply s).after rest := rfl

theorem after_append (s : Store) (changes rest : List Change) :
    s.after (changes ++ rest) = (s.after changes).after rest :=
  List.foldl_append

end Store

/-- The changes of calls are those that the calls make. -/
def Effects.Of (effects : Effects) (call : Call) : Prop :=
  ∀ d w, (call d w).2.store = w.store.after (effects d w)

section

variable {call : Call} {effects : Effects}

theorem notifyOne_after (h : effects.Of call) (d : Delivery) (w : LiveStore) :
    (notifyOne call d w).store = w.store.after (effects d w) := by
  rw [notifyOne_store, h d w]

theorem notify_after (h : effects.Of call) (event : StoreEvent) (id : ResourceId)
    (obj : Resource) (w : LiveStore) :
    (notify call event id obj w).store =
      w.store.after (notifyChanges call effects event id obj (w.store.listeners event) w) := by
  unfold notify
  generalize w.store.listeners event = listeners
  induction listeners generalizing w with
  | nil => rfl
  | cons listener rest ih =>
    rw [List.foldl_cons, ih, notifyChanges, Store.after_append, notifyOne_after h]

theorem flush_after (h : effects.Of call) (listener : ListenerId) :
    ∀ (objects : List (ResourceId × Resource)) (w : LiveStore),
      (flush call listener objects w).2.store =
        w.store.after (flushChanges call effects listener objects w)
  | [], _ => rfl
  | (id, obj) :: rest, w => by
    have hcall := h ⟨listener, .added, false, id, obj⟩ w
    rw [flush, flushChanges, Store.after_append, ← hcall]
    rcases call ⟨listener, .added, false, id, obj⟩ w with ⟨e | u, w'⟩
    · rfl
    · exact flush_after h listener rest w'

theorem LiveStore.add_after (h : effects.Of call) (obj : Resource) (w : LiveStore) :
    (w.add call obj).2.store = w.store.after (w.addChanges call effects obj) := by
  rw [addChanges, Store.after_cons, Change.apply, LiveStore.add]
  rcases w.store.add obj with ⟨e | (_ | written), t⟩
  · rfl
  · rfl
  · exact notify_after h .added obj.id written { w with store := t }

theorem LiveStore.delete_after (h : effects.Of call) (id : ResourceId) (w : LiveStore) :
    (w.delete call id).2.store = w.store.after (w.deleteChanges call effects id) := by
  rw [deleteChanges, Store.after_cons, Change.apply, LiveStore.delete]
  rcases w.store.delete id with e | ⟨obj, t⟩
  · rfl
  · exact notify_after h .deleted id obj { w with store := t }

theorem LiveStore.listen_after (h : effects.Of call) (event : StoreEvent)
    (listener : ListenerId) (withFlush : Bool) (w : LiveStore) :
    (w.listen call event listener withFlush).2.store =
      w.store.after (w.listenChanges call effects event listener withFlush) := by
  rw [listenChanges, Store.after_cons, Change.apply, LiveStore.listen]
  dsimp only
  split
  · exact flush_after h listener _ _
  · rfl

theorem Script.runWith_after (h : effects.Of call) {α : Type} (script : Script α)
    (w : LiveStore) :
    (script.runWith call w).2.store = w.store.after (script.changesWith call effects w) := by
  induction script generalizing w with
  | done x => rfl
  | fail e => rfl
  | get id type next ih => exact ih _ w
  | list kind next ih => exact ih _ w
  | add obj next ih =>
    rw [changesWith, Store.after_append, ← LiveStore.add_after h]
    exact ih _ _
  | delete id next ih =>
    rw [changesWith, Store.after_append, ← LiveStore.delete_after h]
    exact ih _ _
  | listen event listener withFlush next ih =>
    rw [changesWith, Store.after_append, ← LiveStore.listen_after h]
    exact ih _ _
  | unlisten event listener next ih => exact ih _
  | log level text next ih => exact ih _

end

/-- However deep listeners call for one another, the changes are theirs. -/
theorem reactChanges_of (reaction : Reaction) :
    ∀ depth, (reactChanges reaction depth).Of (react reaction depth)
  | 0, _, _ => rfl
  | depth + 1, d, w =>
    Script.runWith_after (reactChanges_of reaction depth) (reaction d w.deliveries) (w.recorded d)

/-- **A run leads to the store after its changes.** -/
theorem Script.react_after (reaction : Reaction) (depth : Nat) {α : Type} (script : Script α)
    (w : LiveStore) :
    (script.runWith (react reaction depth) w).2.store =
      w.store.after (script.changes reaction depth w) :=
  Script.runWith_after (reactChanges_of reaction depth) script w

/-! ## What a store represents -/

namespace Store

/-- The Apps that changes write, in order. -/
def journal (s : Store) : List Change → List App
  | [] => []
  | c :: rest => c.written s ++ (c.apply s).journal rest

/-- What a store and the Apps written to it so far, in order, have to do with each
other. -/
structure Represents (s : Store) (written : List App) : Prop where
  /-- No identity occurs twice. -/
  distinct : (s.objects.map (·.1)).Pairwise fun a b => a.same b = false
  /-- Each resource is stored under its own identity. -/
  keyed : ∀ e ∈ s.objects, e.1.same e.2.id = true
  /-- The version of a stored App is the numeral of one of the writes. -/
  version : ∀ e ∈ s.objects, ∀ x : App, e.2 = .app x →
    ∃ n, 1 ≤ n ∧ n ≤ written.length ∧ x.resourceVersion = .str (Numeral.ofNat n)
  /-- The versions are numerals that increase with the writes. -/
  increasing : ∃ numbers : List Nat, numbers.Pairwise (· < ·) ∧
    written.map (·.resourceVersion) = numbers.map fun n => .str (Numeral.ofNat n)
  /-- No version is given out twice. -/
  unique : (written.map (·.resourceVersion)).Nodup

/-- The versions in a history count the writes. -/
theorem History.map_version {s : Store} {written : List App} (h : s.History written) :
    written.map (·.resourceVersion) =
      (List.range' 1 written.length).map fun n => .str (Numeral.ofNat n) := by
  refine List.ext_getElem (by simp) fun k hk _ => ?_
  rw [List.length_map] at hk
  simp only [List.getElem_map, List.getElem_range', Nat.one_mul, Nat.add_comm 1 k]
  exact h.version k _ (List.getElem?_eq_getElem hk)

theorem History.represents {s : Store} {written : List App} (hs : s.Sound)
    (h : s.History written) : s.Represents written where
  distinct := hs.distinct
  keyed := hs.keyed
  version := by
    intro e he x hx
    obtain ⟨k, hk⟩ := List.mem_iff_getElem?.mp (h.stored e he x hx)
    have hlt : k < written.length := (List.getElem?_eq_some_iff.mp hk).1
    exact ⟨k + 1, by omega, by omega, h.version k x hk⟩
  increasing := ⟨_, List.pairwise_lt_range', h.map_version⟩
  unique := by
    rw [h.map_version]
    refine List.Pairwise.map _ ?_ List.pairwise_lt_range'
    intro m n hlt heq
    exact Nat.ne_of_lt hlt (Numeral.ofNat_inj.mp (Value.str.inj heq))

/-- Changes lead from a sound store with a history to one whose history goes on with
what they write. -/
theorem History.after {s : Store} {written : List App} (hs : s.Sound) (h : s.History written)
    (changes : List Change) :
    (s.after changes).Sound ∧ (s.after changes).History (written ++ s.journal changes) := by
  induction changes generalizing s written with
  | nil => exact ⟨hs, by rwa [journal, List.append_nil]⟩
  | cons c rest ih =>
    rw [after_cons, journal, ← List.append_assoc]
    exact ih (hs.apply c) (h.apply hs c)

/-- After any changes the store represents what they wrote. -/
theorem after_represents (changes : List Change) :
    (after {} changes).Represents (journal {} changes) := by
  obtain ⟨hs, h⟩ := History.empty.after .empty changes
  exact h.represents hs

end Store

/-- **At every moment of every run the store represents what was written.** The changes
of a run lead to the store in which it ends, among any listeners, which may heed all calls made
before and call for one another up to any depth (`deliver_eq_react`: those of a `Behaviour`
too); and after each of the changes no identity occurs twice, every resource stands under its
own, the version of every stored App is the numeral of a write made so far, and the versions
given out have increased with every write. -/
theorem run_represents (reaction : Reaction) (depth : Nat) {α : Type} (script : Script α) :
    (script.runWith (react reaction depth) {}).2.store =
        Store.after {} (script.changes reaction depth {}) ∧
      ∀ k, (Store.after {} ((script.changes reaction depth {}).take k)).Represents
        (Store.journal {} ((script.changes reaction depth {}).take k)) :=
  ⟨script.react_after reaction depth {}, fun _ => Store.after_represents _⟩

end AppSynthesis
