/-
AppSynthesis.Proofs.Store.Order — in which order a listener is told of the Apps that are
written.

* `news` — the Apps of an identity that a listener is told were written, in order.
* `Store.heard` — those that changes write while the listener is registered, in order.
* `Calls.Prompt` — in one round of calls, the listener is called before the App is written
  again, and not called twice.
* `Requests.news_eq_heard` — where all rounds about an App are prompt, what a listener is told
  is what was written while it was registered, in this order.
* `Script.runWith_in_order` — so the versions that it is told increase, and the last App that
  it saw is the stored one, if it is told of that one at all.
* `Script.run_out_of_order` — without that, a listener is told of the second write first.

A listener that writes from inside a call starts a round of its own, and that round is over
before the one around it goes on. So those that stand behind it hear the later write first.
-/
import AppSynthesis.Proofs.Store.Dispatch

namespace AppSynthesis

open Store (Change)

/-! ## What a listener is told, and what is written -/

/-- The App, if any, of an identity that a call tells a listener was written. -/
def Delivery.news (listener : ListenerId) (id : ResourceId) (d : Delivery) : List App :=
  match d.object with
  | .app x =>
    if d.listener = listener ∧ d.event = .added ∧ d.fired = true ∧
        (Resource.app x).id.same id = true then [x] else []
  | _ => []

/-- The Apps of an identity that calls tell a listener were written, in order. -/
def news (listener : ListenerId) (id : ResourceId) (calls : List Delivery) : List App :=
  calls.flatMap (Delivery.news listener id)

/-- The Apps of an identity among others, in order. -/
def App.under (id : ResourceId) (written : List App) : List App :=
  written.filter fun x => (Resource.app x).id.same id

/-- The Apps of an identity that changes write while a listener is registered, in order. -/
def Store.heard (listener : ListenerId) (id : ResourceId) : Store → List Change → List App
  | _, [] => []
  | s, c :: rest =>
    (if listener ∈ (c.apply s).listeners .added then App.under id (c.written s) else []) ++
      heard listener id (c.apply s) rest

section

variable {listener : ListenerId} {id : ResourceId}

theorem news_append (calls rest : List Delivery) :
    news listener id (calls ++ rest) = news listener id calls ++ news listener id rest :=
  List.flatMap_append

theorem App.under_append (written rest : List App) :
    App.under id (written ++ rest) = App.under id written ++ App.under id rest :=
  List.filter_append ..

theorem Store.heard_append (changes rest : List Change) (s : Store) :
    s.heard listener id (changes ++ rest) =
      s.heard listener id changes ++ (s.after changes).heard listener id rest := by
  induction changes generalizing s with
  | nil => rfl
  | cons c changes ih => rw [List.cons_append, heard, ih, heard, List.append_assoc, after_cons]

/-- What is written while a listener is registered is some of what is written. -/
theorem Store.heard_sublist (changes : List Change) (s : Store) :
    (s.heard listener id changes).Sublist (App.under id (s.journal changes)) := by
  induction changes generalizing s with
  | nil => exact .slnil
  | cons c rest ih =>
    rw [heard, journal, App.under_append]
    refine List.Sublist.append ?_ (ih _)
    split
    · exact .refl _
    · exact List.nil_sublist _

/-! ## One round of calls -/

/-- In a round of calls a listener is called before anything is written under an identity
again: no call before one to it is to it as well, or writes such an App. -/
def Calls.Prompt (listener : ListenerId) (id : ResourceId) : Store → Calls → Prop
  | _, .done => True
  | s, .next d inside rest =>
    ((∃ d' ∈ rest.made, d'.listener = listener) →
      d.listener ≠ listener ∧ App.under id (s.journal inside.changes) = []) ∧
    rest.Prompt listener id (s.after inside.changes)

instance Calls.decidablePrompt : ∀ (s : Store) (calls : Calls),
    Decidable (calls.Prompt listener id s)
  | _, .done => isTrue trivial
  | s, .next _ inside rest =>
    @instDecidableAnd _ _ inferInstance (rest.decidablePrompt (s.after inside.changes))

/-- The round of calls about a request is prompt, if the request writes an App of the
identity. -/
def PromptRound (listener : ListenerId) (id : ResourceId) (s : Store) (c : Change)
    (calls : Calls) : Prop :=
  App.under id (c.written s) ≠ [] → calls.Prompt listener id (c.apply s)

instance (s : Store) (c : Change) (calls : Calls) : Decidable (PromptRound listener id s c calls) :=
  inferInstanceAs (Decidable (_ → _))

/-- No listener is called twice in a prompt round: one is not called again after it was. -/
theorem Calls.Prompt.once : ∀ {calls : Calls} {s : Store}, calls.Prompt listener id s →
    calls.made.Pairwise fun d d' => d'.listener = listener → d.listener ≠ listener
  | .done, _, _ => .nil
  | .next _ _ _, _, h => .cons (fun d' hd' hlistener => (h.1 ⟨d', hd', hlistener⟩).1) h.2.once

theorem Delivery.mem_news {d : Delivery} {x : App} : x ∈ d.news listener id ↔
    d.object = .app x ∧ d.listener = listener ∧ d.event = .added ∧ d.fired = true ∧
      (Resource.app x).id.same id = true := by
  unfold news
  split
  · rename_i y hy
    split
    · rename_i hnews
      simp only [List.mem_singleton, hy, Resource.app.injEq]
      exact ⟨fun h => ⟨h.symm, h ▸ hnews⟩, fun h => h.1.symm⟩
    · rename_i hnews
      refine iff_of_false List.not_mem_nil fun h => hnews ?_
      rw [hy, Resource.app.injEq] at h
      exact h.1 ▸ h.2
  · rename_i hobj
    exact iff_of_false List.not_mem_nil fun h => hobj x h.1

theorem news_eq_nil {calls : List Delivery} (h : ∀ d ∈ calls, ∀ x, x ∉ d.news listener id) :
    news listener id calls = [] :=
  List.flatMap_eq_nil_iff.mpr fun d hd => List.eq_nil_iff_forall_not_mem.mpr (h d hd)

/-- The listeners of an App that was written are told of it, each once. -/
theorem news_told {x : App} {about : ResourceId} : ∀ {listeners : List ListenerId},
    (listeners.map fun l => (⟨l, .added, true, about, .app x⟩ : Delivery)).Pairwise
      (fun d d' => d'.listener = listener → d.listener ≠ listener) →
    news listener id (listeners.map fun l => ⟨l, .added, true, about, .app x⟩) =
      if listener ∈ listeners then App.under id [x] else []
  | [], _ => rfl
  | l :: rest, h => by
    obtain ⟨hlast, hrest⟩ := List.pairwise_cons.mp h
    have ih := news_told hrest
    rw [List.map_cons, news, List.flatMap_cons, ← news]
    by_cases hl : l = listener
    · have hnil := @news_eq_nil listener id _ fun d hd y hy =>
        hlast d hd (Delivery.mem_news.mp hy).2.1 hl
      rw [hnil, List.append_nil, if_pos (hl ▸ List.mem_cons_self)]
      simp [Delivery.news, App.under, hl, List.filter_cons]
    · rw [ih]
      simp [Delivery.news, hl, Ne.symm hl]

/-- Listeners that are told of something else hear nothing of the identity. -/
theorem news_told_other {s : Store} {about : ResourceId} {obj : Resource}
    (h : ∀ x, obj = .app x → (Resource.app x).id.same id = false) :
    news listener id (s.told .added about obj) = [] := by
  refine news_eq_nil fun d hd x hx => ?_
  obtain ⟨l, _, rfl⟩ := List.mem_map.mp hd
  obtain ⟨hobj, _, _, _, hsame⟩ := Delivery.mem_news.mp hx
  exact Bool.false_ne_true ((h x hobj).symm.trans hsame)

/-- What a listener is told by the calls of a request is what the request writes, if the
listener is registered. -/
theorem news_of_tells {s : Store} {c : Change} {calls : Calls} (h : c.Tells s calls.made)
    (hprompt : PromptRound listener id s c calls) :
    news listener id calls.made =
      if listener ∈ (c.apply s).listeners .added then App.under id (c.written s) else [] := by
  generalize hmade : calls.made = made at h
  cases h with
  | @stored obj written answer put =>
    have hwritten : (Change.add obj).written s = written.app?.toList := by
      rw [Change.written, answer]
    rw [PromptRound, hwritten] at hprompt
    rw [hwritten]
    cases written with
    | app x =>
      rcases hx : (Resource.app x).id.same id with _ | _
      · have hnone : App.under id [x] = [] := by simp [App.under, hx]
        rw [show (Resource.app x).app?.toList = [x] from rfl, hnone, ite_self]
        exact news_told_other fun y hy => Resource.app.inj hy ▸ hx
      · have hsome : App.under id [x] ≠ [] := by simp [App.under, hx]
        have honce := (hprompt hsome).once
        rw [hmade] at honce
        exact news_told honce
    | packageInstall x => exact (news_told_other fun _ h => by cases h).trans (ite_self _).symm
    | package x => exact (news_told_other fun _ h => by cases h).trans (ite_self _).symm
  | unchanged answer | refused answer =>
    rw [Change.written, answer]
    exact (ite_self _).symm
  | @deleted i obj found taken =>
    refine (news_eq_nil fun d hd x hx => ?_).trans (ite_self _).symm
    obtain ⟨l, _, rfl⟩ := List.mem_map.mp hd
    cases (Delivery.mem_news.mp hx).2.2.1
  | missing answer => exact (ite_self _).symm
  | registered shown =>
    refine (news_eq_nil fun d hd x hx => ?_).trans (ite_self _).symm
    obtain ⟨e, _, rfl⟩ := List.mem_map.mp (shown.subset hd)
    cases (Delivery.mem_news.mp hx).2.2.2.1
  | unregistered => exact (ite_self _).symm

/-! ## All rounds of a tree -/

/-- No call is about an App of the identity after one inside which another was written. -/
def Calls.Apart (listener : ListenerId) (id : ResourceId) : Store → Calls → Prop
  | _, .done => True
  | s, .next _ inside rest =>
    (news listener id rest.made = [] ∨ s.heard listener id inside.changes = []) ∧
      rest.Apart listener id (s.after inside.changes)

theorem Calls.Apart.of_made : ∀ {calls : Calls} {s : Store},
    news listener id calls.made = [] → calls.Apart listener id s
  | .done, _, _ => trivial
  | .next _ _ _, _, h =>
    have hrest := (List.append_eq_nil_iff.mp h).2
    ⟨Or.inl hrest, of_made hrest⟩

theorem Calls.Prompt.apart : ∀ {calls : Calls} {s : Store}, calls.Prompt listener id s →
    calls.Apart listener id s
  | .done, _, _ => trivial
  | .next _ inside rest, s, h => by
    refine ⟨?_, h.2.apart⟩
    by_cases hlater : ∃ d' ∈ rest.made, d'.listener = listener
    · have hnone := @Store.heard_sublist listener id inside.changes s
      rw [(h.1 hlater).2] at hnone
      exact Or.inr (List.eq_nil_of_sublist_nil hnone)
    · exact Or.inl (news_eq_nil fun d hd _ hx =>
        hlater ⟨d, hd, (Delivery.mem_news.mp hx).2.1⟩)

theorem PromptRound.apart {s : Store} {c : Change} {calls : Calls} (h : c.Tells s calls.made)
    (hprompt : PromptRound listener id s c calls) : calls.Apart listener id (c.apply s) := by
  by_cases hwritten : App.under id (c.written s) = []
  · have hmade := news_of_tells h hprompt
    rw [hwritten, ite_self] at hmade
    exact .of_made hmade
  · exact (hprompt hwritten).apart

mutual

/-- **What a listener is told is what was written while it was registered**, in this order, if
each round about such an App comes to it in time. By induction on the tree: the calls of a
round come to what its request writes, and what is written inside them comes after. -/
theorem Requests.news_eq_heard : ∀ {tree : Requests} {s : Store}, tree.Tell s →
    tree.Every (PromptRound listener id) s →
    news listener id tree.deliveries = s.heard listener id tree.changes
  | .done, _, _, _ => rfl
  | .tooDeep, _, _, _ => rfl
  | .next c calls rest, s, htell, hprompt => by
    obtain ⟨hround, hcalls, hrest⟩ := htell
    obtain ⟨hpromptRound, hpromptCalls, hpromptRest⟩ := hprompt
    have hinside := Calls.news_eq_heard hcalls hpromptCalls (hpromptRound.apart hround)
    have hafter := Requests.news_eq_heard hrest hpromptRest
    rw [Requests.deliveries, Requests.changes, news_append, hinside, hafter,
      news_of_tells hround hpromptRound, List.cons_append, Store.heard, Store.heard_append,
      List.append_assoc]

/-- The calls in turn tell a listener what they are about, and then what was written inside. -/
theorem Calls.news_eq_heard : ∀ {calls : Calls} {s : Store}, calls.Tell s →
    calls.Every (PromptRound listener id) s → calls.Apart listener id s →
    news listener id calls.deliveries =
      news listener id calls.made ++ s.heard listener id calls.changes
  | .done, _, _, _, _ => rfl
  | .next d inside rest, s, htell, hprompt, hapart => by
    have hinside := Requests.news_eq_heard htell.1 hprompt.1
    have hrest := Calls.news_eq_heard htell.2 hprompt.2 hapart.2
    have hcons : ∀ calls, news listener id (d :: calls) =
        d.news listener id ++ news listener id calls := fun _ => List.flatMap_cons
    rw [Calls.deliveries, Calls.made, Calls.changes, List.cons_append, hcons, hcons, news_append,
      hinside, hrest, Store.heard_append]
    rcases hapart.1 with hnone | hnone
    · simp only [hnone, List.nil_append, List.append_nil]
    · simp only [hnone, List.nil_append, List.append_assoc]

end

end

/-! ## The App that is stored -/

namespace Store

variable {s : Store} {id : ResourceId} {written : List App}

/-- The App that is stored under an identity is the last that was written there. -/
def Latest (s : Store) (id : ResourceId) (written : List App) : Prop :=
  ∀ x, s.find? id = some (.app x) → (App.under id written).getLast? = some x

theorem Latest.of_find? {t : Store} (h : s.Latest id written)
    (hfind : ∀ obj, t.find? id = some obj → s.find? id = some obj) : t.Latest id written :=
  fun x hx => h x (hfind _ hx)

/-- What is found after a removal was there before. -/
theorem Sound.find?_of_delete (hs : s.Sound) (hid : id.isAtomic = true) {i : ResourceId}
    {obj : Resource} (h : ((Change.delete i).apply s).find? id = some obj) :
    s.find? id = some obj := by
  rcases delete_cases s i with he | he
  · rwa [he] at h
  · rw [he] at h
    obtain ⟨key, hmem, hsame⟩ := find?_mem h
    exact hs.find?_of_mem (List.eraseP_subset hmem) hid hsame

theorem Latest.write (hs : s.Sound) (hid : id.isAtomic = true) (h : s.Latest id written)
    {obj : Resource} (hobj : obj.id.isAtomic = true) :
    (s.write obj).Latest id (written ++ (s.stamped obj).app?.toList) := by
  intro x hx
  rw [App.under_append]
  rcases hsame : obj.id.same id with _ | _
  · rw [hs.find?_write_other hobj hid hsame] at hx
    have hnone : App.under id (s.stamped obj).app?.toList = [] := by
      cases obj with
      | app y => exact List.filter_cons_of_neg (Bool.eq_false_iff.mp hsame)
      | packageInstall y => rfl
      | package y => rfl
    rw [hnone, List.append_nil]
    exact h x hx
  · rw [hs.find?_write hobj hid hsame] at hx
    have hstamped := Option.some.inj hx
    have hx : (Resource.app x).id.same id = true := by rwa [← hstamped, stamped_id]
    have hsome : App.under id (s.stamped obj).app?.toList = [x] := by
      rw [hstamped]
      exact List.filter_cons_of_pos hx
    rw [hsome, List.getLast?_append]
    rfl

theorem Latest.apply (hs : s.Sound) (hid : id.isAtomic = true) (h : s.Latest id written) :
    ∀ c : Change, (c.apply s).Latest id (written ++ c.written s)
  | .add obj => by
    simp only [Change.apply, Change.written]
    rcases add_cases hs.refusals obj with ⟨e, _, he⟩ | ⟨_, _, he⟩ | ⟨ho, _, he⟩
    · simpa only [he, List.append_nil] using h
    · simpa only [he, List.append_nil] using h
    · simpa only [he] using h.write hs hid (isAtomic_of_objection? ho)
  | .delete _ => by
    rw [Change.written, List.append_nil]
    exact h.of_find? fun _ => hs.find?_of_delete hid
  | .register _ _ => by
    rw [Change.written, List.append_nil]
    exact h.of_find? fun _ hx => hx
  | .unregister _ _ => by
    rw [Change.written, List.append_nil]
    exact h.of_find? fun _ hx => hx

/-- After any changes, the stored App is the last that they wrote. -/
theorem Latest.after (hs : s.Sound) (hid : id.isAtomic = true) (h : s.Latest id written)
    (changes : List Change) : (s.after changes).Latest id (written ++ s.journal changes) := by
  induction changes generalizing s written with
  | nil => rwa [journal, List.append_nil]
  | cons c rest ih =>
    rw [after_cons, journal, ← List.append_assoc]
    exact ih (hs.apply c) (h.apply hs hid c)

end Store

/-- The last of a list without repetitions is the last of a selection that it is in. -/
theorem getLast?_of_sublist {α : Type} {xs ys : List α} {x : α} (h : xs.Sublist ys)
    (hys : ys.Nodup) (hlast : ys.getLast? = some x) (hx : x ∈ xs) : xs.getLast? = some x := by
  obtain ⟨init, rfl⟩ := List.getLast?_eq_some_iff.mp hlast
  obtain ⟨front, back, rfl, hfront, hback⟩ := List.sublist_append_iff.mp h
  have hnot : x ∉ front := fun hmem =>
    (List.nodup_append.mp hys).2.2 x (hfront.subset hmem) x (List.mem_singleton_self x) rfl
  have hmem : x ∈ back := (List.mem_append.mp hx).resolve_left hnot
  rw [hback.eq_of_length_le (List.length_pos_of_mem hmem), List.getLast?_append]
  rfl

/-- **In a run whose rounds come to a listener in time, it hears of an App in the order of its
writes.** It is told exactly what is written while it is registered; so the versions that it
is told are numerals that increase, and it ends with the App that is stored, if that is one it
was told of. -/
theorem Script.runWith_in_order (reaction : Reaction) (depth : Nat) {α : Type}
    (script : Script α) (listener : ListenerId) {id : ResourceId} (hid : id.isAtomic = true)
    (hcomplete : (script.requests reaction depth {}).complete = true)
    (hprompt : (script.requests reaction depth {}).Every (PromptRound listener id) {}) :
    let ending := (script.runWith (react reaction depth) {}).2
    news listener id ending.deliveries =
        Store.heard listener id {} (script.requests reaction depth {}).changes ∧
      (∃ numbers : List Nat, numbers.Pairwise (· < ·) ∧
        (news listener id ending.deliveries).map (·.resourceVersion) =
          numbers.map fun n => .str (Numeral.ofNat n)) ∧
      ∀ x, ending.store.find? id = some (.app x) → x ∈ news listener id ending.deliveries →
        (news listener id ending.deliveries).getLast? = some x := by
  intro ending
  generalize htree : script.requests reaction depth {} = tree at *
  have hstore : ending.store = Store.after {} tree.changes :=
    htree ▸ script.runWith_changes reaction depth {}
  have hcalls : ending.deliveries = tree.deliveries := by
    have hrun := script.runWith_deliveries reaction depth {} (htree.symm ▸ hcomplete)
    rw [htree] at hrun
    exact hrun
  have htell : tree.Tell {} := htree ▸ script.requests_tell reaction depth {}
  have hnews : news listener id ending.deliveries = Store.heard listener id {} tree.changes := by
    rw [hcalls]
    exact Requests.news_eq_heard htell hprompt
  have hsublist : (news listener id ending.deliveries).Sublist
      (App.under id (Store.journal {} tree.changes)) := hnews ▸ Store.heard_sublist _ _
  have hrepresents := Store.after_represents tree.changes
  refine ⟨hnews, ?_, fun x hx hmem => ?_⟩
  · obtain ⟨numbers, hincreasing, hnumbers⟩ := hrepresents.increasing
    have hversions := (hsublist.trans List.filter_sublist).map (·.resourceVersion)
    rw [hnumbers] at hversions
    obtain ⟨told, htold, heq⟩ := List.sublist_map_iff.mp hversions
    exact ⟨told, hincreasing.sublist htold, heq⟩
  · have hlatest : (Store.after {} tree.changes).Latest id ([] ++ Store.journal {} tree.changes) :=
      Store.Latest.after .empty hid (fun y hy => by cases hy) tree.changes
    have hnodup : (Store.journal {} tree.changes).Nodup :=
      (List.pairwise_map.mp hrepresents.unique).imp fun hne heq =>
        hne (congrArg App.resourceVersion heq)
    exact getLast?_of_sublist hsublist (hnodup.filter _) (hlatest x (hstore ▸ hx)) hmem

/-- A listener that stands before one that writes the App again is told of both writes in their
order, though the second round is over before the first. -/
theorem Script.runWith_in_order_before :
    ∃ (reaction : Reaction) (script : Script Unit) (id : ResourceId), id.isAtomic = true ∧
      (script.requests reaction 3 {}).complete = true ∧
      (script.requests reaction 3 {}).Every (PromptRound 0 id) {} ∧
      ((script.runWith (react reaction 3) {}).2.deliveries.map fun d =>
        (d.listener, Store.versionOf d.object)) =
          [(0, .str "1"), (1, .str "1"), (0, .str "2"), (1, .str "2")] ∧
      ∃ numbers : List Nat, numbers.Pairwise (· < ·) ∧
        (news 0 id (script.runWith (react reaction 3) {}).2.deliveries).map (·.resourceVersion) =
          numbers.map fun n => .str (Numeral.ofNat n) := by
  let web : App := { name := .str "web", ns := .str "apps", spec := {} }
  let reaction : Reaction := fun d before =>
    if before.length = 1 then
      d.object.app?.elim (.done ()) fun x =>
        .add (.app { x with labels := .map none [(.str "seen", .bool true)] }) fun _ => .done ()
    else .done ()
  let script : Script Unit :=
    .listen .added 0 false fun _ => .listen .added 1 false fun _ => .add (.app web) fun _ => .done ()
  have hcomplete : (script.requests reaction 3 {}).complete = true := by decide +kernel
  have hprompt : (script.requests reaction 3 {}).Every (PromptRound 0 (Resource.app web).id) {} := by
    decide +kernel
  exact ⟨reaction, script, (Resource.app web).id, rfl, hcomplete, hprompt, by decide +kernel,
    (script.runWith_in_order reaction 3 0 rfl hcomplete hprompt).2.1⟩

/-- **A listener that stands behind one that writes is told of the later write first**, and ends
with an App that is older than the stored one. A listener that is registered twice is told of
one write twice. -/
theorem Script.run_out_of_order :
    (∃ (behaviour : Behaviour) (script : Script Unit) (id : ResourceId),
      (news 1 id (script.run behaviour {}).2.deliveries).map (·.resourceVersion) =
        [.str "2", .str "1"] ∧
      ((script.run behaviour {}).2.store.find? id).map Store.versionOf = some (.str "2")) ∧
    ∃ (behaviour : Behaviour) (script : Script Unit) (id : ResourceId),
      (news 0 id (script.run behaviour {}).2.deliveries).map (·.resourceVersion) =
        [.str "1", .str "1"] := by
  let web : App := { name := .str "web", ns := .str "apps", spec := {} }
  let touching : Behaviour := fun listener _ obj =>
    if listener = 0 then
      obj.app?.elim (.done ()) fun x =>
        if x.labels = .null then
          .add (.app { x with labels := .map none [(.str "seen", .bool true)] }) fun _ => .done ()
        else .done ()
    else .done ()
  exact
    ⟨⟨touching, .listen .added 0 false fun _ => .listen .added 1 false fun _ =>
        .add (.app web) fun _ => .done (), (Resource.app web).id, by decide +kernel⟩,
      ⟨fun _ _ _ => .done (), .listen .added 0 false fun _ => .listen .added 0 false fun _ =>
        .add (.app web) fun _ => .done (), (Resource.app web).id, by decide +kernel⟩⟩

end AppSynthesis
