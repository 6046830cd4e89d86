/-
AppSynthesis.Proofs.Store.Runs — what runs of scripts keep.

* `Script.runWith_bind`, `Script.runWith_recover` — a script after another, and
  after an error, on a live store.
* `Script.Only` — the script asks for allowed changes only, whatever it is
  answered; `Script.Only.bind`, `Script.Only.recover`, so do scripts made of
  such scripts.
* `Script.runWith_keeps`, `deliver_keeps` — what every allowed change keeps is
  kept by every run of a script that asks for no other, if the listeners that
  are called keep it too; and listeners whose scripts ask for no other do, to
  every depth.
* `Script.run_keeps` — so what every change keeps is kept by every run, among
  any listeners.

Which calls to listeners a run makes depends on what it asks for
(`Delivery.Due`): a run that neither writes nor removes calls no listener but
those it registers itself.
-/
import AppSynthesis.Proofs.Store.History
import AppSynthesis.Store.Live

namespace AppSynthesis

open Store (Change)

/-! ## One script after another -/

namespace Script

variable {α β : Type} {call : Call}

theorem runWith_bind (f : α → Script β) (s : Script α) (w : LiveStore) :
    (s.bind f).runWith call w =
      match s.runWith call w with
      | (.ok x, w) => (f x).runWith call w
      | (.error e, w) => (.error e, w) := by
  induction s generalizing w with
  | done x => rfl
  | fail e => rfl
  | get id type next ih => exact ih _ _
  | list kind next ih => exact ih _ _
  | add obj next ih => exact ih _ _
  | delete id next ih => exact ih _ _
  | listen event listener flush next ih => exact ih _ _
  | unlisten event listener next ih => exact ih _
  | log level text next ih => exact ih _

theorem runWith_recover (f : Error → Script α) (s : Script α) (w : LiveStore) :
    (s.recover f).runWith call w =
      match s.runWith call w with
      | (.ok x, w) => (.ok x, w)
      | (.error e, w) => (f e).runWith call w := by
  induction s generalizing w with
  | done x => rfl
  | fail e => rfl
  | get id type next ih => exact ih _ _
  | list kind next ih => exact ih _ _
  | add obj next ih => exact ih _ _
  | delete id next ih => exact ih _ _
  | listen event listener flush next ih => exact ih _ _
  | unlisten event listener next ih => exact ih _
  | log level text next ih => exact ih _

theorem runWith_ofExcept (r : Except Error α) (w : LiveStore) :
    (Script.ofExcept r).runWith call w = (r, w) := by
  cases r <;> rfl

/-! ## Scripts that ask for allowed changes only -/

/-- The script asks for allowed changes only, whatever it is answered. -/
def Only (allowed : Change → Prop) : Script α → Prop
  | .done _ => True
  | .fail _ => True
  | .get _ _ next => ∀ r, (next r).Only allowed
  | .list _ next => ∀ r, (next r).Only allowed
  | .add obj next => allowed (.add obj) ∧ ∀ r, (next r).Only allowed
  | .delete id next => allowed (.delete id) ∧ ∀ r, (next r).Only allowed
  | .listen event listener _ next =>
    allowed (.register event listener) ∧ ∀ r, (next r).Only allowed
  | .unlisten event listener next => allowed (.unregister event listener) ∧ next.Only allowed
  | .log _ _ next => next.Only allowed

theorem only_any (s : Script α) : s.Only Change.any := by
  induction s with
  | done x => trivial
  | fail e => trivial
  | get id type next ih => exact ih
  | list kind next ih => exact ih
  | add obj next ih => exact ⟨trivial, ih⟩
  | delete id next ih => exact ⟨trivial, ih⟩
  | listen event listener flush next ih => exact ⟨trivial, ih⟩
  | unlisten event listener next ih => exact ⟨trivial, ih⟩
  | log level text next ih => exact ih

variable {allowed : Change → Prop}

theorem Only.mono {allowed' : Change → Prop} (himp : ∀ c, allowed c → allowed' c) {s : Script α}
    (h : s.Only allowed) : s.Only allowed' := by
  induction s with
  | done x => trivial
  | fail e => trivial
  | get id type next ih => exact fun r => ih r (h r)
  | list kind next ih => exact fun r => ih r (h r)
  | add obj next ih => exact ⟨himp _ h.1, fun r => ih r (h.2 r)⟩
  | delete id next ih => exact ⟨himp _ h.1, fun r => ih r (h.2 r)⟩
  | listen event listener flush next ih => exact ⟨himp _ h.1, fun r => ih r (h.2 r)⟩
  | unlisten event listener next ih => exact ⟨himp _ h.1, ih h.2⟩
  | log level text next ih => exact ih h

theorem Only.bind {s : Script α} (h : s.Only allowed) {f : α → Script β}
    (hf : ∀ x, (f x).Only allowed) : (s.bind f).Only allowed := by
  induction s with
  | done x => exact hf x
  | fail e => trivial
  | get id type next ih => exact fun r => ih r (h r)
  | list kind next ih => exact fun r => ih r (h r)
  | add obj next ih => exact ⟨h.1, fun r => ih r (h.2 r)⟩
  | delete id next ih => exact ⟨h.1, fun r => ih r (h.2 r)⟩
  | listen event listener flush next ih => exact ⟨h.1, fun r => ih r (h.2 r)⟩
  | unlisten event listener next ih => exact ⟨h.1, ih h.2⟩
  | log level text next ih => exact ih h

theorem Only.recover {s : Script α} (h : s.Only allowed) {f : Error → Script α}
    (hf : ∀ e, (f e).Only allowed) : (s.recover f).Only allowed := by
  induction s with
  | done x => trivial
  | fail e => exact hf e
  | get id type next ih => exact fun r => ih r (h r)
  | list kind next ih => exact fun r => ih r (h r)
  | add obj next ih => exact ⟨h.1, fun r => ih r (h.2 r)⟩
  | delete id next ih => exact ⟨h.1, fun r => ih r (h.2 r)⟩
  | listen event listener flush next ih => exact ⟨h.1, fun r => ih r (h.2 r)⟩
  | unlisten event listener next ih => exact ⟨h.1, ih h.2⟩
  | log level text next ih => exact ih h

theorem ofExcept_only (r : Except Error α) : (Script.ofExcept r).Only allowed := by
  cases r <;> trivial

theorem forEach_only {items : List α} {f : α → Script Unit} (h : ∀ x, (f x).Only allowed) :
    (Script.forEach items f).Only allowed := by
  induction items with
  | nil => trivial
  | cons x rest ih => exact (h x).bind fun _ => ih

end Script

/-! ## Writing -/

/-- The answer to an addition, and the store when it is refused. -/
theorem LiveStore.add_answer (call : Call) (obj : Resource) {w : LiveStore}
    (hw : w.store.refusals = 0) :
    (∃ e, w.store.objection? obj = some e ∧ w.add call obj = (.error e, w)) ∨
    (w.store.objection? obj = none ∧ ∃ receipt, (w.add call obj).1 = .ok receipt ∧
      (receipt = .unchanged ∨ receipt = .stored (w.store.stamped obj))) := by
  rcases Store.add_cases hw obj with ⟨e, ho, he⟩ | ⟨ho, _, he⟩ | ⟨ho, _, he⟩
  · exact Or.inl ⟨e, ho, by unfold LiveStore.add; rw [he]⟩
  · exact Or.inr ⟨ho, .unchanged, by unfold LiveStore.add; rw [he], Or.inl rfl⟩
  · exact Or.inr ⟨ho, .stored _, by unfold LiveStore.add; rw [he], Or.inr rfl⟩

theorem Script.run_add (behaviour : Behaviour) (obj : Resource) (w : LiveStore) :
    (Script.add obj .ofExcept).run behaviour w = w.add (deliver behaviour nestingLimit) obj :=
  runWith_ofExcept _ _

/-! ## What runs keep -/

/-- The calls to listeners that allowed changes give rise to: those that
answer a write or a removal, and those that show a new listener what is
there. -/
def Delivery.Due (allowed : Change → Prop) (d : Delivery) : Prop :=
  if d.fired then (∃ obj, allowed (.add obj)) ∨ ∃ id, allowed (.delete id)
  else allowed (.register d.event d.listener)

/-- The calls of a kind keep a property of the store. -/
def Call.Keeps (call : Call) (P : Store → Prop) (kind : Delivery → Prop) : Prop :=
  ∀ d w, kind d → P w.store → P (call d w).2.store

section Keeps

variable {allowed : Change → Prop} {P : Store → Prop} {kind : Delivery → Prop} {call : Call}

/-- An error of a listener has no effect on the store but what came before it. -/
theorem notifyOne_store (call : Call) (d : Delivery) (w : LiveStore) :
    (notifyOne call d w).store = (call d w).2.store := by
  unfold notifyOne
  rcases call d w with ⟨_ | _, _⟩ <;> rfl

theorem notifyOne_keeps (hcall : call.Keeps P kind) {d : Delivery} (hd : kind d)
    {w : LiveStore} (h : P w.store) : P (notifyOne call d w).store :=
  notifyOne_store call d w ▸ hcall d w hd h

theorem notify_keeps (hcall : call.Keeps P kind) {event : StoreEvent} {id : ResourceId}
    {obj : Resource} (hd : ∀ listener, kind ⟨listener, event, true, id, obj⟩)
    {w : LiveStore} (h : P w.store) : P (notify call event id obj w).store := by
  unfold notify
  generalize w.store.listeners event = listeners
  induction listeners generalizing w with
  | nil => exact h
  | cons listener rest ih => exact ih (notifyOne_keeps hcall (hd listener) h)

theorem flush_keeps (hcall : call.Keeps P kind) {listener : ListenerId}
    (hd : ∀ id obj, kind ⟨listener, .added, false, id, obj⟩) :
    ∀ (objects : List (ResourceId × Resource)) {w : LiveStore}, P w.store →
      P (flush call listener objects w).2.store
  | [], w, h => h
  | (id, obj) :: rest, w, h => by
    have hw := hcall ⟨listener, .added, false, id, obj⟩ w (hd id obj) h
    unfold flush
    rcases hc : call ⟨listener, .added, false, id, obj⟩ w with ⟨r, w'⟩
    rw [hc] at hw
    cases r with
    | ok _ => exact flush_keeps hcall hd rest hw
    | error _ => exact hw

/-- What becomes of the store by an addition, before the listeners are called. -/
theorem LiveStore.add_cases (call : Call) (obj : Resource) (w : LiveStore) :
    (∃ written, w.store.add obj = (.ok (.stored written), (w.store.add obj).2) ∧
      w.add call obj = (.ok (.stored written),
        notify call .added obj.id written { w with store := (w.store.add obj).2 })) ∨
    w.add call obj = ((w.store.add obj).1, { w with store := (w.store.add obj).2 }) := by
  unfold LiveStore.add
  rcases w.store.add obj with ⟨(e | (_ | written)), t⟩
  · exact Or.inr rfl
  · exact Or.inr rfl
  · exact Or.inl ⟨written, rfl, rfl⟩

theorem LiveStore.add_keeps (hP : ∀ c, allowed c → ∀ s, P s → P (c.apply s))
    (hdue : ∀ d : Delivery, d.Due allowed → kind d) (hcall : call.Keeps P kind) {obj : Resource}
    (hobj : allowed (.add obj)) {w : LiveStore} (h : P w.store) :
    P (w.add call obj).2.store := by
  have hs : P (w.store.add obj).2 := hP (.add obj) hobj w.store h
  rcases LiveStore.add_cases call obj w with ⟨written, _, he⟩ | he
  · rw [he]
    exact notify_keeps hcall (fun listener => hdue _ (Or.inl ⟨obj, hobj⟩)) hs
  · rw [he]
    exact hs

theorem LiveStore.delete_keeps (hP : ∀ c, allowed c → ∀ s, P s → P (c.apply s))
    (hdue : ∀ d : Delivery, d.Due allowed → kind d) (hcall : call.Keeps P kind) {id : ResourceId}
    (hid : allowed (.delete id)) {w : LiveStore} (h : P w.store) :
    P (w.delete call id).2.store := by
  have hs := hP (.delete id) hid w.store h
  simp only [Change.apply] at hs
  unfold LiveStore.delete
  rcases hd : w.store.delete id with e | ⟨obj, t⟩
  · exact h
  · rw [hd] at hs
    exact notify_keeps hcall (fun listener => hdue _ (Or.inr ⟨id, hid⟩)) hs

theorem LiveStore.listen_keeps (hP : ∀ c, allowed c → ∀ s, P s → P (c.apply s))
    (hdue : ∀ d : Delivery, d.Due allowed → kind d) (hcall : call.Keeps P kind)
    {event : StoreEvent} {listener : ListenerId} (hl : allowed (.register event listener))
    (withFlush : Bool) {w : LiveStore} (h : P w.store) :
    P (w.listen call event listener withFlush).2.store := by
  have hs : P (w.store.register event listener) := hP (.register event listener) hl w.store h
  unfold LiveStore.listen
  dsimp only
  split
  · rename_i hf
    exact flush_keeps hcall (fun id obj => hdue _ (hf.2 ▸ hl)) _ hs
  · exact hs

/-- What every allowed change keeps is kept by every run of a script that asks
for no other. -/
theorem Script.runWith_keeps {α : Type} (hP : ∀ c, allowed c → ∀ s, P s → P (c.apply s))
    (hdue : ∀ d : Delivery, d.Due allowed → kind d) (hcall : call.Keeps P kind) (s : Script α)
    (hs : s.Only allowed) {w : LiveStore} (h : P w.store) :
    P (s.runWith call w).2.store := by
  induction s generalizing w with
  | done x => exact h
  | fail e => exact h
  | get id type next ih => exact ih _ (hs _) h
  | list kind next ih => exact ih _ (hs _) h
  | add obj next ih => exact ih _ (hs.2 _) (LiveStore.add_keeps hP hdue hcall hs.1 h)
  | delete id next ih => exact ih _ (hs.2 _) (LiveStore.delete_keeps hP hdue hcall hs.1 h)
  | listen event listener flush next ih =>
    exact ih _ (hs.2 _) (LiveStore.listen_keeps hP hdue hcall hs.1 flush h)
  | unlisten event listener next ih =>
    exact ih hs.2 (hP (.unregister event listener) hs.1 w.store h)
  | log level text next ih => exact ih hs h

/-- Listeners that ask for allowed changes only keep what these keep, however
deep they call for one another. -/
theorem deliver_keeps {behaviour : Behaviour}
    (hP : ∀ c, allowed c → ∀ s, P s → P (c.apply s))
    (hdue : ∀ d : Delivery, d.Due allowed → kind d)
    (hb : ∀ d, kind d → (behaviour d.listener d.id d.object).Only allowed) :
    ∀ depth, (deliver behaviour depth).Keeps P kind
  | 0, _, _, _, h => h
  | depth + 1, d, w, hd, h =>
    Script.runWith_keeps hP hdue (deliver_keeps hP hdue hb depth) _ (hb d hd)
      (w := w.recorded d) h

end Keeps

/-- What every change keeps is kept by every call to a listener. -/
theorem deliver_keeps_any {P : Store → Prop} (hP : ∀ (c : Change) s, P s → P (c.apply s))
    (behaviour : Behaviour) (depth : Nat) :
    (deliver behaviour depth).Keeps P fun _ => True :=
  deliver_keeps (fun c (_ : Change.any c) => hP c) (fun _ _ => trivial)
    (fun _ _ => Script.only_any _) depth

/-- **What every change keeps is kept by every run**, however deep listeners may call. -/
theorem Script.runWith_keeps_any {P : Store → Prop} (hP : ∀ (c : Change) s, P s → P (c.apply s))
    (behaviour : Behaviour) (depth : Nat) {α : Type} (s : Script α) {w : LiveStore}
    (h : P w.store) : P (s.runWith (deliver behaviour depth) w).2.store :=
  Script.runWith_keeps (fun c (_ : Change.any c) => hP c) (fun _ _ => trivial)
    (deliver_keeps_any hP behaviour depth) s s.only_any h

/-- So it is kept by every run among any listeners. -/
theorem Script.run_keeps {P : Store → Prop} (hP : ∀ (c : Change) s, P s → P (c.apply s))
    (behaviour : Behaviour) {α : Type} (s : Script α) {w : LiveStore} (h : P w.store) :
    P (s.run behaviour w).2.store :=
  s.runWith_keeps_any hP behaviour nestingLimit h

/-- A run goes on with the history that it finds. -/
theorem Script.run_continues (behaviour : Behaviour) {α : Type} (s : Script α)
    {written : List App} {w : LiveStore} (h : w.store.Continues written) :
    (s.run behaviour w).2.store.Continues written :=
  Script.run_keeps (fun c _ hs => hs.apply c) behaviour s h

end AppSynthesis
