/-
AppSynthesis.Proofs.Store.Clients — clients that write back what they have
read.

* `Reading`, `Clients` — what a client was given when it asked for an App, and a
  live store with all readings so far.
* `Clients.Reached` — what any number of clients lead to by reading and by
  running scripts of any kind, in any order. Deleting, writing and writing what
  was read are such scripts; so is whatever listeners do about them.
* `Reading.Allows` — an App made from what was read: with its name, namespace and
  version, and anything else changed. After nothing was found it is a new App
  of the identity asked for, without a version.
* `add_of_reading` — no update is lost: such an App is written exactly when
  the store still holds what was read, and is refused without effect otherwise.

The reading may be as old as one likes. What carries the proof is the history of
the store (`AppSynthesis.Proofs.Store.History`): every App that was ever read is
in it, and a version belongs to one App of it. So an App that was deleted and
created again in the meantime is told apart even when it looks the same.
-/
import AppSynthesis.Proofs.Store.Runs

namespace AppSynthesis

open Store (Change)

/-! ## Clients -/

/-- What tells clients apart. -/
abbrev ClientId := Nat

/-- What a client was given when it asked for an App. -/
structure Reading where
  client : ClientId
  id : ResourceId
  answer : Option Resource

/-- A live store with what its clients have read so far. -/
structure Clients where
  live : LiveStore := {}
  readings : List Reading := []

/-- A client is given an answer. -/
def Clients.given (σ : Clients) (r : Reading) : Clients := { σ with readings := r :: σ.readings }

/-- A client runs a script: it deletes or writes something, for example. -/
def Clients.act (behaviour : Behaviour) (script : Script Unit) (σ : Clients) : Clients :=
  { σ with live := (script.run behaviour σ.live).2 }

/-- What clients lead to, in any order of their steps. -/
inductive Clients.Reached (behaviour : Behaviour) : Clients → Prop
  | start : Reached behaviour {}
  | read {σ : Clients} (client : ClientId) (id : ResourceId) (answer : Option Resource) :
      Reached behaviour σ → σ.live.store.get id .app = .ok answer →
      Reached behaviour (σ.given ⟨client, id, answer⟩)
  | act {σ : Clients} (script : Script Unit) :
      Reached behaviour σ → Reached behaviour (σ.act behaviour script)

/-- The App is made from what was read. -/
inductive Reading.Allows (r : Reading) (x : App) : Prop
  | changed (a : App) : r.answer = some (.app a) → x.name = a.name → x.ns = a.ns →
      x.resourceVersion = a.resourceVersion → Allows r x
  | created : r.answer = none → (Resource.app x).id = r.id → x.resourceVersion = .null →
      Allows r x

/-! ## What was read is in the history -/

/-- The store has a history, and what was read is in it. -/
structure Clients.Recorded (σ : Clients) (written : List App) : Prop where
  sound : σ.live.store.Sound
  history : σ.live.store.History written
  atomic : ∀ r ∈ σ.readings, r.id.isAtomic = true
  read : ∀ r ∈ σ.readings, ∀ obj, r.answer = some obj →
    obj.id.isAtomic = true ∧ ∃ a ∈ written, obj = .app a

theorem Clients.Recorded.act {σ : Clients} {written : List App} (h : σ.Recorded written)
    (behaviour : Behaviour) (script : Script Unit) :
    ∃ more, (σ.act behaviour script).Recorded (written ++ more) := by
  obtain ⟨hsound, more, hmore⟩ :=
    script.run_continues behaviour (h.history.continues h.sound)
  refine ⟨more, hsound, hmore, h.atomic, fun r hr obj ho => ?_⟩
  obtain ⟨hid, a, ha, rfl⟩ := h.read r hr obj ho
  exact ⟨hid, a, List.mem_append_left _ ha, rfl⟩

theorem Clients.Recorded.given {σ : Clients} {written : List App} (h : σ.Recorded written)
    {id : ResourceId} {answer : Option Resource} (client : ClientId)
    (hget : σ.live.store.get id .app = .ok answer) :
    (σ.given ⟨client, id, answer⟩).Recorded written := by
  obtain ⟨hid, hfind, _⟩ := Store.get_eq_ok hget
  refine ⟨h.sound, h.history, ?_, ?_⟩
  · intro r hr
    rcases List.mem_cons.mp hr with rfl | hr
    · exact hid
    · exact h.atomic r hr
  · intro r hr obj ho
    rcases List.mem_cons.mp hr with rfl | hr
    · obtain rfl : answer = some obj := ho
      obtain ⟨a, rfl⟩ := Store.app_of_get hget
      obtain ⟨i, hmem, _⟩ := Store.find?_mem hfind
      exact ⟨(h.sound.atomic _ hmem).2, a, h.history.stored _ hmem a rfl, rfl⟩
    · exact h.read r hr obj ho

theorem Clients.Reached.recorded {behaviour : Behaviour} {σ : Clients}
    (h : σ.Reached behaviour) : ∃ written, σ.Recorded written := by
  induction h with
  | start => exact ⟨[], .empty, .empty, by simp, by simp⟩
  | read client id answer _ hget ih =>
    obtain ⟨written, hw⟩ := ih
    exact ⟨written, hw.given client hget⟩
  | act script _ ih =>
    obtain ⟨written, hw⟩ := ih
    obtain ⟨more, hmore⟩ := hw.act behaviour script
    exact ⟨_, hmore⟩

/-! ## No update is lost -/

/-- **No update is lost.** Whatever clients and listeners did since, an App made
from what a client has read is written exactly when the store still holds
what was read, or still nothing when nothing was read. Otherwise the write is
a conflict and changes nothing. -/
theorem add_of_reading {behaviour : Behaviour} {σ : Clients} (h : σ.Reached behaviour)
    {r : Reading} (hr : r ∈ σ.readings) {x : App} (hx : r.Allows x) :
    ((∃ receipt, ((Script.add (.app x) .ofExcept).run behaviour σ.live).1 = .ok receipt) ↔
      σ.live.store.find? (Resource.app x).id = r.answer) ∧
    (σ.live.store.find? (Resource.app x).id ≠ r.answer →
      (Script.add (.app x) .ofExcept).run behaviour σ.live =
        (.error (.conflict (Resource.app x).id.text x.resourceVersion
          (σ.live.store.currentVersion (Resource.app x).id)), σ.live)) := by
  obtain ⟨written, hw⟩ := h.recorded
  obtain ⟨read, hread, hanswer, hversion, hid⟩ :
      ∃ read : Option App, (∀ a, read = some a → a ∈ written) ∧ r.answer = read.map .app ∧
        x.resourceVersion = App.versionRead read ∧ (Resource.app x).id.isAtomic = true := by
    cases hx with
    | changed a ha hname hns hv =>
      obtain ⟨hid, b, hb, hab⟩ := hw.read r hr _ ha
      obtain rfl := Resource.app.inj hab
      refine ⟨some a, fun b hb' => Option.some.inj hb' ▸ hb, ha, hv, ?_⟩
      simpa only [Resource.id, hname, hns] using hid
    | created hnone hxid hv =>
      exact ⟨none, by simp, hnone, hv, hxid ▸ hw.atomic r hr⟩
  have hcheck := hw.history.objection?_app hw.sound hread hversion hid
  rw [← hanswer] at hcheck
  rw [Script.run_add]
  rcases LiveStore.add_answer (deliver behaviour nestingLimit) (.app x) hw.sound.refusals with
    ⟨e, ho, hadd⟩ | ⟨ho, receipt, hadd, _⟩
  · rw [ho] at hcheck
    split at hcheck
    · cases hcheck
    · rename_i hne
      obtain rfl := Option.some.inj hcheck
      refine ⟨⟨fun ⟨receipt, hreceipt⟩ => ?_, fun heq => absurd heq hne⟩, fun _ => hadd⟩
      rw [hadd] at hreceipt
      cases hreceipt
  · rw [ho] at hcheck
    split at hcheck
    · rename_i heq
      exact ⟨⟨fun _ => heq, fun _ => ⟨receipt, hadd⟩⟩, fun hne => absurd heq hne⟩
    · cases hcheck

/-- An App that was deleted and created again, just as it was before, is told
apart from the one that was read. -/
theorem add_of_reading_recreated :
    ∃ (σ : Clients) (r : Reading) (x : App),
      σ.Reached (fun _ _ _ => .done ()) ∧ r ∈ σ.readings ∧ r.Allows x ∧
      ((Script.add (.app x) .ofExcept).run (fun _ _ _ => .done ()) σ.live).1 =
        .error (.conflict "App/apps/web" (.str "1") (.str "2")) := by
  let web : App := { name := .str "web", ns := .str "apps" }
  let id := (Resource.app web).id
  let create : Script Unit := .add (.app web) fun _ => .done ()
  let first : App := { web with resourceVersion := .str "1" }
  let created : Clients := Clients.act (fun _ _ _ => .done ()) create {}
  let read := created.given ⟨0, id, some (.app first)⟩
  let recreated := read.act (fun _ _ _ => .done ()) (.delete id fun _ => create)
  have hreached : recreated.Reached (fun _ _ _ => .done ()) :=
    .act _ (.read 0 id _ (.act create .start) rfl)
  have hread : ⟨0, id, some (.app first)⟩ ∈ recreated.readings := List.mem_singleton.mpr rfl
  have hallows : Reading.Allows ⟨0, id, some (.app first)⟩ { first with labels := .map none [] } :=
    .changed first rfl rfl rfl rfl
  refine ⟨recreated, _, _, hreached, hread, hallows, ?_⟩
  rw [(add_of_reading hreached hread hallows).2 (by decide +kernel)]
  exact congrArg Except.error (by decide +kernel)

end AppSynthesis
