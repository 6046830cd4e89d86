/-
AppSynthesis.Proofs.Controller.Listening — what is left of a registration that ends in an error.

* `flush_eq_error` — to show a listener what is there fails at the first resource at which it does.
* `Store.count_after` — a registration stays as long as no change takes it away, and is told of
  every write then (`Store.Change.Tells.mem_of_registered`).
* `onAdded_only`, `startController_registered` — a controller takes none away.
* `Script.listen_left` — a listener stays registered whether or not it could be shown what is
  there, and whoever asked for it has got no remover if not.

The registration comes first and what follows is not undone. The registrations afterwards are
therefore those before, the new one, and what was asked for inside the calls that were made.
-/
import AppSynthesis.Proofs.Controller.Isolation
import AppSynthesis.Proofs.Store.Dispatch
import AppSynthesis.Proofs.Store.Registration

namespace AppSynthesis

open Store (Change)

/-! ## Showing what is there -/

section

variable {call : Call} {listener : ListenerId} {objects : List (ResourceId × Resource)}
  {w u : LiveStore}

/-- To show a listener what is there fails at the first resource at which the listener does. -/
theorem flush_eq_error {e : Error} : flush call listener objects w = (.error e, u) ↔
    ∃ front id obj back v, objects = front ++ (id, obj) :: back ∧
      flush call listener front w = (.ok (), v) ∧
      call ⟨listener, .added, false, id, obj⟩ v = (.error e, u) := by
  constructor
  · induction objects generalizing w with
    | nil => exact fun h => nomatch h
    | cons first rest ih =>
      intro h
      rw [flush] at h
      split at h
      · rename_i hcall
        obtain ⟨front, id, obj, back, v, rfl, hshown, hfails⟩ := ih h
        refine ⟨first :: front, id, obj, back, v, rfl, ?_, hfails⟩
        rw [flush, hcall, ← hshown]
      · rename_i hcall
        obtain ⟨herror, rfl⟩ := Prod.mk.inj h
        cases herror
        exact ⟨[], first.1, first.2, rest, w, rfl, rfl, hcall⟩
  · rintro ⟨front, id, obj, back, v, rfl, hshown, hfails⟩
    induction front generalizing w with
    | nil =>
      obtain rfl := (Prod.mk.inj hshown).2
      rw [List.nil_append, flush, hfails]
    | cons first rest ih =>
      rw [flush] at hshown
      split at hshown
      · rename_i hcall
        rw [List.cons_append, flush, hcall, ← ih hshown]
      · cases hshown

/-- A listener that is not shown what is there is registered without an error. -/
theorem LiveStore.listen_eq_error {event : StoreEvent} {withFlush : Bool} {e : Error} :
    w.listen call event listener withFlush = (.error e, u) ↔
      withFlush = true ∧ event = .added ∧
        flush call listener w.store.objects
          { w with store := w.store.register event listener } = (.error e, u) := by
  unfold LiveStore.listen
  dsimp only
  split
  · rename_i hflush
    exact ⟨fun h => ⟨hflush.1, hflush.2, h⟩, fun h => h.2.2⟩
  · rename_i hflush
    exact ⟨fun h => (nomatch h), fun h => absurd ⟨h.1, h.2.1⟩ hflush⟩

end

/-! ## Registrations that nobody takes away -/

namespace Store

variable {event : StoreEvent} {listener : ListenerId}

theorem Change.count_onRegistrations {c : Change} (hc : c ≠ .unregister event listener)
    (registrations : List (StoreEvent × ListenerId)) :
    registrations.count (event, listener) ≤
      (c.onRegistrations registrations).count (event, listener) := by
  cases c with
  | add obj => exact Nat.le_refl _
  | delete id => exact Nat.le_refl _
  | register event' listener' =>
    rw [onRegistrations, List.count_append]
    exact Nat.le_add_right _ _
  | unregister event' listener' =>
    have hne : (event, listener) ≠ (event', listener') := by
      rintro ⟨⟩
      exact hc rfl
    exact Nat.le_of_eq (List.count_erase_of_ne hne).symm

/-- A registration stays as long as no change takes it away. -/
theorem count_after {changes : List Change} (h : .unregister event listener ∉ changes)
    (s : Store) : s.registrations.count (event, listener) ≤
      (s.after changes).registrations.count (event, listener) := by
  induction changes generalizing s with
  | nil => exact Nat.le_refl _
  | cons c rest ih =>
    obtain ⟨hc, hrest⟩ := List.ne_and_not_mem_of_not_mem_cons h
    have hstep := Change.count_onRegistrations (Ne.symm hc) s.registrations
    rw [← c.apply_registrations] at hstep
    exact Nat.le_trans hstep (ih hrest (c.apply s))

/-- A listener that is registered is told of every write. -/
theorem Change.Tells.mem_of_registered {s : Store} {obj written : Resource}
    {made : List Delivery} (h : (Change.add obj).Tells s made)
    (hanswer : (s.add obj).1 = .ok (.stored written))
    (hregistered : (.added, listener) ∈ s.registrations) :
    ⟨listener, .added, true, obj.id, written⟩ ∈ made := by
  cases h with
  | stored answer put =>
    obtain rfl := Receipt.stored.inj (Except.ok.inj (answer.symm.trans hanswer))
    refine List.mem_map.mpr ⟨listener, List.mem_map.mpr ⟨(.added, listener), ?_, rfl⟩, rfl⟩
    refine List.mem_filter.mpr ⟨?_, by simp⟩
    rwa [Change.apply, add_registrations]
  | unchanged answer => cases answer.symm.trans hanswer
  | refused answer => cases answer.symm.trans hanswer

end Store

/-! ## What a controller asks for -/

/-- An App is written. -/
def Store.Change.WritesApp (c : Change) : Prop := ∃ x, c = .add (.app x)

theorem attemptWrite_only (config : ControllerConfig) (install : PackageInstall)
    (package : Package) {onConflict : Error → Script App}
    (h : ∀ e, (onConflict e).Only Change.WritesApp) :
    (attemptWrite config install package onConflict).Only Change.WritesApp := by
  rintro (e | existing)
  · trivial
  · dsimp only
    split
    · trivial
    · refine ⟨⟨_, rfl⟩, ?_⟩
      rintro (e | receipt)
      · dsimp only
        split
        · exact h e
        · trivial
      · trivial

theorem writeApp_only (config : ControllerConfig) (install : PackageInstall) (package : Package) :
    ∀ retries, (writeApp config install package retries).Only Change.WritesApp
  | 0 => attemptWrite_only config install package fun _ => trivial
  | retries + 1 =>
    attemptWrite_only config install package fun _ => writeApp_only config install package retries

theorem tryReconcile_only (config : ControllerConfig) (id : ResourceId) :
    (tryReconcile config id).Only Change.WritesApp := by
  have hread : (readInstall id).Only Change.WritesApp := by
    intro answer
    dsimp only
    split <;> trivial
  have hpackage : ∀ install, (readPackage config install).Only Change.WritesApp :=
    fun _ _ => Script.ofExcept_only _
  have hreconcile : (reconcile config id).Only Change.WritesApp :=
    Script.Only.bind hread fun install => Script.Only.bind (hpackage install) fun package =>
      Script.Only.bind (writeApp_only config install package _) fun _ => trivial
  have hended : ((reconcile config id).bind fun _ => .done ()).Only Change.WritesApp :=
    Script.Only.bind hreconcile fun _ => trivial
  refine Script.Only.recover hended fun e => ?_
  split <;> trivial

/-- What a controller asks for is that Apps are written, whatever it is shown. -/
theorem onAdded_only (config : ControllerConfig) (id : ResourceId) (obj : Resource) :
    (onAdded config id obj).Only Change.WritesApp := by
  cases obj with
  | app x => trivial
  | packageInstall install => exact tryReconcile_only config id
  | package package => exact fun _ => Script.forEach_only fun _ => tryReconcile_only config _

/-! ## Starting -/

theorem startController_run_eq (behaviour : Behaviour) (listener : ListenerId) (w : LiveStore) :
    (startController listener).run behaviour w =
      w.listen (deliver behaviour nestingLimit) .added listener true :=
  Script.runWith_ofExcept _ _

/-- **A controller that was started is registered once more than before, also if it failed.** -/
theorem startController_registered {behaviour : Behaviour} {own : ListenerId}
    {config : ControllerConfig} (hb : behaviour.Watches own config) (w : LiveStore) :
    ((startController own).run behaviour w).2.store.registrations.count (.added, own) =
      w.store.registrations.count (.added, own) + 1 := by
  let allowed : Change → Prop := fun c => c.WritesApp ∨ c.Quiet own
  let Registered : Store → Prop := fun s =>
    s.registrations.count (.added, own) = w.store.registrations.count (.added, own) + 1
  have hkeeps : ∀ c, allowed c → ∀ s, Registered s → Registered (c.apply s) := by
    rintro c (⟨x, rfl⟩ | hquiet) s hs
    · exact (congrArg (List.count _) (s.add_registrations _)).trans hs
    · show (c.apply s).registrations.count _ = _
      rw [c.apply_registrations, ← hs]
      cases c with
      | add obj => exact hquiet.elim
      | delete id => exact hquiet.elim
      | register event listener =>
        have hne : (event, listener) ≠ (.added, own) := fun heq => hquiet (Prod.mk.inj heq).2
        rw [Change.onRegistrations, List.count_append, List.count_singleton,
          if_neg (by simpa using hne), Nat.add_zero]
      | unregister event listener =>
        exact List.count_erase_of_ne (fun heq => hquiet (Prod.mk.inj heq).2.symm) ..
  have hcall : (deliver behaviour nestingLimit).Keeps Registered fun _ => True := by
    refine deliver_keeps hkeeps (fun _ _ => trivial) (fun d _ => ?_) nestingLimit
    by_cases hown : d.listener = own
    · rw [hown, hb.controller]
      exact (onAdded_only config d.id d.object).mono fun _ => Or.inl
    · exact (hb.others _ hown _ _).mono fun _ => Or.inr
  rw [startController_run_eq]
  refine flush_keeps hcall (fun _ _ => trivial) w.store.objects
    (w := { w with store := w.store.register .added own }) ?_
  show (w.store.registrations ++ [(StoreEvent.added, own)]).count _ = _
  rw [List.count_append, List.count_singleton_self]

/-- **A listener that could not be shown what is there stays registered.** Its registration ends in
an error exactly when it is to be shown what is there and a call about one of the resources ends
in this error, after those about the resources before it did not. Error or not, nothing is undone:
the registrations afterwards are those before, the new one, and what was asked for inside the
calls. Unless this takes the new one away they are never those before, and a listener of additions
is told of every later one, until somebody takes it away. A controller does not take itself away,
so one whose start failed goes on listening. -/
theorem Script.listen_left (reaction : Reaction) (depth : Nat) (event : StoreEvent)
    (listener : ListenerId) (withFlush : Bool) (w : LiveStore) :
    let call := react reaction depth
    let ending := (Script.listen event listener withFlush .ofExcept).runWith call w
    let inside :=
      (w.listenCalls call (reactRequests reaction depth) event listener withFlush).changes
    (∀ e u, ending = (.error e, u) ↔ withFlush = true ∧ event = .added ∧
      ∃ front id obj back v, w.store.objects = front ++ (id, obj) :: back ∧
        flush call listener front { w with store := w.store.register event listener } =
          (.ok (), v) ∧
        call ⟨listener, .added, false, id, obj⟩ v = (.error e, u)) ∧
    ending.2.store.registrations =
      inside.foldl (fun registrations c => c.onRegistrations registrations)
        (w.store.registrations ++ [(event, listener)]) ∧
    (.unregister event listener ∉ inside → ∀ later, .unregister event listener ∉ later →
      w.store.registrations.count (event, listener) <
        (ending.2.store.after later).registrations.count (event, listener) ∧
      (event = .added → ∀ obj written made,
        ((ending.2.store.after later).add obj).1 = .ok (.stored written) →
        (Change.add obj).Tells (ending.2.store.after later) made →
        ⟨listener, .added, true, obj.id, written⟩ ∈ made)) ∧
    ∀ behaviour own config, behaviour.Watches own config →
      ((startController own).run behaviour w).2.store.registrations.count (.added, own) =
        w.store.registrations.count (.added, own) + 1 := by
  intro call ending inside
  have hending : ending = w.listen call event listener withFlush := Script.runWith_ofExcept _ _
  have hstore : ending.2.store = (w.store.register event listener).after inside := by
    rw [hending, LiveStore.listen_after (reactRequests_of reaction depth),
      ← LiveStore.listenCalls_changes, Store.after_cons]
    rfl
  refine ⟨fun e u => ?_, ?_, fun hinside later hlater => ?_, fun behaviour own config hb =>
    startController_registered hb w⟩
  · rw [hending, LiveStore.listen_eq_error, flush_eq_error]
  · rw [hstore, Store.after_registrations]
    rfl
  · have hcount : w.store.registrations.count (event, listener) <
        (ending.2.store.after later).registrations.count (event, listener) := by
      rw [hstore, ← Store.after_append]
      refine Nat.lt_of_lt_of_le ?_ (Store.count_after ?_ (w.store.register event listener))
      · show _ < (w.store.registrations ++ [(event, listener)]).count _
        rw [List.count_append, List.count_singleton_self]
        exact Nat.lt_succ_self _
      · exact fun hmem => (List.mem_append.mp hmem).elim hinside hlater
    refine ⟨hcount, fun hevent obj written made hanswer htells => ?_⟩
    subst hevent
    exact htells.mem_of_registered hanswer
      (List.count_pos_iff.mp (Nat.lt_of_le_of_lt (Nat.zero_le _) hcount))

/-- A controller is shown an install whose annotations are a list, of which nobody is told. It is
not started, and is told of what is added later. -/
theorem Script.listen_left_controller :
    ∃ (w : LiveStore) (e : Error) (p : Package),
      ((startController 0).run (.controller 0 {}) w).1 = .error e ∧ e.isReported = false ∧
      w.store.registrations = [] ∧
      ((startController 0).run (.controller 0 {}) w).2.store.registrations.count (.added, 0) = 1 ∧
      ∀ made, (Change.add (.package p)).Tells
          ((startController 0).run (.controller 0 {}) w).2.store made →
        ⟨0, .added, true, (Resource.package p).id, .package p⟩ ∈ made := by
  let install := Isolation.first none (.list (some 2) [.map (some 1) [(.str "k", .str "v")]])
  let later : Package := { Isolation.package with name := .str "q", refName := .str "q" }
  let w : LiveStore :=
    { store := Store.given [.package Isolation.package, .packageInstall install] }
  obtain ⟨-, -, hstays, hstarted⟩ :=
    Script.listen_left (Behaviour.controller 0 {}).reaction nestingLimit .added 0 true w
  rw [← deliver_eq_react] at hstays
  have hinside : (w.listenCalls (deliver (.controller 0 {}) nestingLimit)
      (reactRequests (Behaviour.controller 0 {}).reaction nestingLimit) .added 0 true).changes =
        [] :=
    List.length_eq_zero_iff.mp (by decide +kernel)
  have hanswer : (((startController 0).run (.controller 0 {}) w).2.store.add (.package later)).1 =
      .ok (.stored (.package later)) := by decide +kernel
  have hrun : (Script.listen .added 0 true .ofExcept).runWith
      (deliver (.controller 0 {}) nestingLimit) w =
        (startController 0).run (.controller 0 {}) w := rfl
  rw [hinside, hrun] at hstays
  refine ⟨w, .fault .noMember, later, by decide +kernel, rfl, by decide +kernel,
    hstarted _ 0 {} (Behaviour.controller_watches 0 {}), fun made htells => ?_⟩
  generalize (startController 0).run (.controller 0 {}) w = ending at hstays hanswer htells
  exact (hstays List.not_mem_nil [] List.not_mem_nil).2 rfl _ _ made hanswer htells

/-- **A registration that ends in an error is not undone.** The listener makes an error of what it
is shown; it is registered afterwards, which it was not before, and the next write calls it. -/
theorem Script.listen_not_undone :
    ∃ (behaviour : Behaviour) (w : LiveStore) (e : Error),
      ((Script.listen .added 0 true .ofExcept).run behaviour w).1 = .error e ∧
      w.store.registrations = [] ∧
      ((Script.listen .added 0 true .ofExcept).run behaviour w).2.store.registrations =
        [(.added, 0)] ∧
      (((Script.listen .added 0 true .ofExcept).recover fun _ =>
          .add (.package { Isolation.package with name := .str "q" }) fun _ => .done ()).run
        behaviour w).2.deliveries.map (·.fired) = [false, true] :=
  ⟨fun _ _ _ => .fail (.fault .listenerFailed),
    { store := Store.given [.package Isolation.package] }, .fault .listenerFailed,
    by decide +kernel⟩

end AppSynthesis
