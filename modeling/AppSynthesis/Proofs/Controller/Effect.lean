/-
AppSynthesis.Proofs.Controller.Effect — the effect of a reconciliation on a store whose
listeners do not write to it.

* `Behaviour.Silent` — no listener writes or removes anything; what they do comes down to
  other registrations (`Store.Resubscribed`).
* `Store.Updated` — the App of an install is there, and nothing else is touched.
* `Store.Sound.wanted_write`, `Store.Sound.holds_write` — after the App was written, a
  second reconciliation wants it under its new version, and that is what is there.
* `reconcile_effect` — a reconciliation never conflicts; it fails without effect, or
  updates the App and nothing else, and when it is repeated it changes nothing.

What a reconciliation does in between is known (`reconcile_alone`), so this is about what
is wanted before and after a single write. It is the same but for the version, since the
synthesis does not look at the version (`Rebuild.apply_withVersion`); and the App that is
wanted then is the one that is stored, so it is the same as that (`newApp_same_self`).
-/
import AppSynthesis.Proofs.Controller.Alone
import AppSynthesis.Proofs.Resolution
import AppSynthesis.Proofs.Synthesis.Rebuild
import AppSynthesis.Proofs.Synthesis.SelfSame

namespace AppSynthesis

open Store (Change)

/-! ## Listeners that do not write -/

/-- A listener is registered or taken away; nothing is written or removed. -/
def Store.Change.Silent : Change → Prop
  | .register _ _ => True
  | .unregister _ _ => True
  | .add _ => False
  | .delete _ => False

/-- No listener writes or removes anything. -/
def Behaviour.Silent (behaviour : Behaviour) : Prop :=
  ∀ listener id obj, (behaviour listener id obj).Only Change.Silent

/-- The second store is the first with other registrations. -/
def Store.Resubscribed (s t : Store) : Prop := ∃ registrations, t = { s with registrations }

theorem Store.Resubscribed.silent {s t : Store} (h : s.Resubscribed t) {c : Change}
    (hc : c.Silent) : s.Resubscribed (c.apply t) := by
  obtain ⟨registrations, rfl⟩ := h
  cases c with
  | add obj => exact hc.elim
  | delete id => exact hc.elim
  | register event listener => exact ⟨_, rfl⟩
  | unregister event listener => exact ⟨_, rfl⟩

theorem notify_silent {behaviour : Behaviour} (hb : behaviour.Silent) (depth : Nat)
    (event : StoreEvent) (id : ResourceId) (obj : Resource) (w : LiveStore) :
    w.store.Resubscribed (notify (deliver behaviour depth) event id obj w).store := by
  have hsilent : ∀ c : Change, c.Silent →
      ∀ t, w.store.Resubscribed t → w.store.Resubscribed (c.apply t) :=
    fun _ hc _ ht => ht.silent hc
  have hdeliver : (deliver behaviour depth).Keeps w.store.Resubscribed fun _ => True :=
    deliver_keeps hsilent (fun _ _ => trivial) (fun d _ => hb d.listener d.id d.object) depth
  exact notify_keeps hdeliver (fun _ => trivial) ⟨_, rfl⟩

/-! ## What is wanted again -/

/-- Whether a value is told apart from itself does not depend on which of two that agree
it is. -/
theorem Value.same_self_of_agrees {v w : Value} (hv : v.isAtomic = true) (hw : w.isAtomic = true)
    (h : v.agrees w = true) (hnan : w.isNaN = false) : v.same v = true := by
  have hsome : w.identity?.isSome := by
    rw [Option.isSome_iff_ne_none, ne_eq, ← isNaN_iff hw, hnan]
    simp
  rw [same_iff hv hv, (agrees_iff hv hw).mp h]
  exact ⟨hsome, rfl⟩

namespace Store

variable {s t : Store} {config : ControllerConfig} {id : ResourceId} {r : Wanted}

/-- What is wanted does not depend on the registrations. -/
theorem Resubscribed.wanted (h : s.Resubscribed t) : t.wanted config id = s.wanted config id := by
  obtain ⟨registrations, rfl⟩ := h
  rfl

/-- The App that is wanted has the identity of the App of the install, or one that is the
same. -/
theorem Sound.id_wanted (hs : s.Sound) (h : s.wanted config id = .ok r) :
    r.install.appId.isAtomic = true ∧ (Resource.app r.app).id.isAtomic = true ∧
      (Resource.app r.app).id.same r.install.appId = true := by
  obtain ⟨hread, _, hmade⟩ := wanted_eq_ok.mp h
  have hatomic := hs.appId_isAtomic hread
  exact ⟨hatomic, id_newApp hs (hs.get_appId hatomic) hmade⟩

/-- **After the App was written, it is what is wanted**, under the version that it was
given. -/
theorem Sound.wanted_write (hs : s.Sound) (hname : id.name.isNaN = false)
    (h : s.wanted config id = .ok r) :
    (s.write (.app r.app)).wanted config id =
      .ok { r with app := r.app.withVersion (.str (Numeral.ofNat (s.revision + 1))) } := by
  obtain ⟨hread, hpackage, hmade⟩ := wanted_eq_ok.mp h
  obtain ⟨hid, hfind⟩ := installAt_eq_ok.mp hread
  obtain ⟨happId, hatomic, hsame⟩ := hs.id_wanted h
  have hother : (Resource.app r.app).id.same id = false := hs.app_apart hread rfl
  have hself : r.install.name.same r.install.name = true := by
    obtain ⟨hinstallId, hinstallSame⟩ := hs.same_of_find? hid hfind
    exact Value.same_self_of_agrees (ResourceId.isAtomic_iff.mp hinstallId).2
      (ResourceId.isAtomic_iff.mp hid).2 (ResourceId.same_iff.mp hinstallSame).2.2 hname
  have happ : (s.write (.app r.app)).appOf r.install =
      some (r.app.withVersion (.str (Numeral.ofNat (s.revision + 1)))) := by
    unfold appOf
    rw [hs.find?_write hatomic happId hsame]
    rfl
  have hpackages : (s.write (.app r.app)).packages = s.packages := hs.packages_write nofun
  refine wanted_eq_ok.mpr ⟨installAt_eq_ok.mpr ⟨hid, ?_⟩, ?_, ?_⟩
  · rw [hs.find?_write_other hatomic hid hother]
    exact hfind
  · rw [hpackages]
    exact hpackage
  · rw [happ]
    exact Rebuild.apply_withVersion (r := ⟨r.install, r.package, config.options⟩) hself hmade _

/-! ## Resources in whose documents no map has a key twice -/

/-- The App stored for an install has no such map either, nor has the empty one that stands for
it if there is none. -/
theorem KeysDistinct.appOf (hkeys : s.KeysDistinct) (install : PackageInstall) :
    (App.schema.encode ((s.appOf install).getD {})).keysDistinct = true := by
  rcases happ : s.appOf install with _ | x
  · decide
  · obtain ⟨obj, hfind, hobj⟩ := Option.bind_eq_some_iff.mp happ
    obtain ⟨i, hmem, _⟩ := find?_mem hfind
    cases obj with
    | app y =>
      obtain rfl := Option.some.inj hobj
      exact hkeys _ hmem
    | packageInstall y => cases hobj
    | package y => cases hobj

/-- So the App that is wanted is the same as itself. -/
theorem KeysDistinct.same_wanted (hkeys : s.KeysDistinct) (h : s.wanted config id = .ok r) :
    App.schema.same r.app r.app = true := by
  obtain ⟨hread, hpackage, hmade⟩ := wanted_eq_ok.mp h
  refine newApp_same_self (hkeys.appOf _) ?_ ?_ hmade
  · obtain ⟨i, hmem, _⟩ := find?_mem (installAt_eq_ok.mp hread).2
    exact hkeys _ hmem
  · obtain ⟨obj, hobj, hsome⟩ := List.mem_filterMap.mp (mem_of_resolvePackage hpackage)
    obtain ⟨e, he, rfl⟩ := List.mem_map.mp hobj
    rcases e with ⟨i, x | x | x⟩ <;> cases hsome
    exact hkeys _ he

/-! ## The effect -/

/-- The App of an install is in a store: the one that was handed out, and the desired one
but for its version. All else is as in the store before. -/
structure Updated (s t : Store) (id : ResourceId) (desired app : App) : Prop where
  others : t.objects.filter (fun e => !e.1.same id) = s.objects.filter fun e => !e.1.same id
  stored : ∃ a, t.find? id = some (.app a) ∧ App.schema.same a app = true ∧
    App.schema.same (a.withVersion desired.resourceVersion) desired = true

theorem Updated.resubscribed {u : Store} {desired app : App} (h : s.Updated t id desired app)
    (hu : t.Resubscribed u) : s.Updated u id desired app := by
  obtain ⟨registrations, rfl⟩ := hu
  exact ⟨h.others, h.stored⟩

/-- An App that is there already needs no writing. -/
theorem Sound.updated_of_holds (hs : s.Sound) (hkeys : s.KeysDistinct)
    (h : s.wanted config id = .ok r) (hholds : s.holds (.app r.app) = true) :
    s.Updated s r.install.appId r.app r.app := by
  obtain ⟨happId, hatomic, hsame⟩ := hs.id_wanted h
  refine ⟨rfl, ?_⟩
  unfold holds at hholds
  rw [hs.find?_congr hatomic happId hsame] at hholds
  split at hholds
  · rename_i existing hfind
    obtain ⟨a, rfl⟩ := hs.app_of_find? rfl hfind
    exact ⟨a, hfind, hholds,
      App.same_withVersion hholds (App.version_agrees (hkeys.same_wanted h))⟩
  · cases hholds

/-- Writing the App of an install updates it. -/
theorem Sound.updated_write (hs : s.Sound) (hkeys : s.KeysDistinct)
    (h : s.wanted config id = .ok r) :
    s.Updated (s.write (.app r.app)) r.install.appId r.app
      (r.app.withVersion (.str (Numeral.ofNat (s.revision + 1)))) := by
  obtain ⟨happId, hatomic, hsame⟩ := hs.id_wanted h
  have hself := hkeys.same_wanted h
  exact ⟨hs.filter_write hatomic happId hsame, _, hs.find?_write hatomic happId hsame,
    App.same_withVersion hself (Value.agrees_str.mpr rfl), hself⟩

/-- The App that was written is held by the store. -/
theorem Sound.holds_write (hs : s.Sound) (hkeys : s.KeysDistinct)
    (h : s.wanted config id = .ok r) :
    (s.write (.app r.app)).holds
      (.app (r.app.withVersion (.str (Numeral.ofNat (s.revision + 1))))) = true := by
  obtain ⟨_, hatomic, _⟩ := hs.id_wanted h
  have hfind : (s.write (.app r.app)).find?
      (Resource.app (r.app.withVersion (.str (Numeral.ofNat (s.revision + 1))))).id =
        some (s.stamped (.app r.app)) :=
    hs.find?_write hatomic hatomic (ResourceId.same_self hatomic)
  unfold holds
  rw [hfind]
  exact App.same_withVersion (hkeys.same_wanted h) (Value.agrees_str.mpr rfl)

theorem Resubscribed.holds (h : s.Resubscribed t) (obj : Resource) :
    t.holds obj = s.holds obj := by
  obtain ⟨registrations, rfl⟩ := h
  rfl

end Store

/-! ## Putting the App that is wanted -/

section Reconciliation

variable {behaviour : Behaviour} {config : ControllerConfig} {id : ResourceId} {w : LiveStore}
  {r : Wanted}

/-- To put the App that is wanted updates it. -/
theorem put_updated (hb : behaviour.Silent) (depth : Nat) (hs : w.store.Sound)
    (hkeys : w.store.KeysDistinct) (h : w.store.wanted config id = .ok r) :
    w.store.Updated (w.put (deliver behaviour depth) r.app).2.store r.install.appId r.app
      (w.put (deliver behaviour depth) r.app).1 := by
  unfold LiveStore.put
  split
  · rename_i hholds
    exact hs.updated_of_holds hkeys h hholds
  · exact (hs.updated_write hkeys h).resubscribed (notify_silent hb depth _ _ _ _)

/-- After that the same App is wanted, and the store holds it. -/
theorem put_again (hb : behaviour.Silent) (depth : Nat) (hs : w.store.Sound)
    (hkeys : w.store.KeysDistinct) (hname : id.name.isNaN = false)
    (h : w.store.wanted config id = .ok r) :
    (w.put (deliver behaviour depth) r.app).2.store.wanted config id =
        .ok { r with app := (w.put (deliver behaviour depth) r.app).1 } ∧
      (w.put (deliver behaviour depth) r.app).2.store.holds
        (.app (w.put (deliver behaviour depth) r.app).1) = true := by
  unfold LiveStore.put
  split
  · rename_i hholds
    exact ⟨h, hholds⟩
  · have hsilent := notify_silent hb depth .added (Resource.app r.app).id
      (w.store.stamped (.app r.app)) { w with store := w.store.write (.app r.app) }
    exact ⟨hsilent.wanted.trans (hs.wanted_write hname h),
      (hsilent.holds _).trans (hs.holds_write hkeys h)⟩

/-- A reconciliation that wants what is there changes nothing and calls nobody. -/
theorem reconcile_held {call : Call} {written : List App} (hs : w.store.Sound)
    (hhistory : w.store.History written) (h : w.store.wanted config id = .ok r)
    (hholds : w.store.holds (.app r.app) = true) :
    (reconcile config id).runWith call w =
      (.ok r.app, w.logged .info (reconciledText id r.package)) := by
  rw [reconcile_alone hs hhistory, h]
  unfold LiveStore.put
  dsimp only
  rw [if_pos hholds]

/-- **What a reconciliation comes to, among listeners that do not write.** It fails with no
effect when it cannot be told what is wanted, and never over a conflict; or it updates the
App that the synthesis makes of what is stored, touches nothing else, and when it is
repeated at once it hands out the same App, leaves the store as it is and calls no
listener. The last takes a name that is the same as itself, as every text is. -/
theorem reconcile_effect (hb : behaviour.Silent) (hw : w.store.Reached Change.any)
    (hkeys : w.store.KeysDistinct) (config : ControllerConfig) (id : ResourceId) :
    (∃ e, w.store.wanted config id = .error e ∧
      (reconcile config id).run behaviour w = (.error e, w) ∧ e.isConflict = false) ∨
    ∃ install package desired app w',
      w.store.find? id = some (.packageInstall install) ∧
      resolvePackage w.store.packages install config.globalNamespace = .ok package ∧
      newApp (w.store.appOf install) install package config.options = .ok desired ∧
      (reconcile config id).run behaviour w = (.ok app, w') ∧
      w.store.Updated w'.store install.appId desired app ∧
      (id.name.isNaN = false →
        ∃ w'', (reconcile config id).run behaviour w' = (.ok app, w'') ∧
          w''.store = w'.store ∧ w''.deliveries = w'.deliveries) := by
  obtain ⟨written, hwritten⟩ := hw.history
  have hrun : (reconcile config id).run behaviour w = _ :=
    reconcile_alone hw.sound hwritten config id
  rcases hwanted : w.store.wanted config id with e | r
  · rw [hwanted] at hrun
    exact Or.inl ⟨e, rfl, hrun, Store.wanted_not_conflict hwanted⟩
  · rw [hwanted] at hrun
    obtain ⟨hread, hpackage, hmade⟩ := Store.wanted_eq_ok.mp hwanted
    refine Or.inr ⟨r.install, r.package, r.app, _, _, (Store.installAt_eq_ok.mp hread).2,
      hpackage, hmade, hrun, put_updated hb _ hw.sound hkeys hwanted, fun hname => ?_⟩
    obtain ⟨hwanted', hholds'⟩ := put_again hb nestingLimit hw.sound hkeys hname hwanted
    have hafter := Script.run_continues behaviour (reconcile config id)
      (hwritten.continues hw.sound)
    rw [hrun] at hafter
    obtain ⟨hsound', more, hhistory'⟩ := hafter
    exact ⟨_, reconcile_held hsound' hhistory' hwanted' hholds', rfl, rfl⟩

/-- A listener that takes itself away is called when the App is written, and not when the
reconciliation is repeated. -/
theorem reconcile_effect_once :
    ∃ (behaviour : Behaviour) (w : LiveStore) (id : ResourceId) (app : App) (w' w'' : LiveStore),
      behaviour.Silent ∧ w.store.Reached Change.any ∧ w.store.KeysDistinct ∧
      id.name.isNaN = false ∧
      (reconcile {} id).run behaviour w = (.ok app, w') ∧
      (reconcile {} id).run behaviour w' = (.ok app, w'') ∧
      w''.store = w'.store ∧ w''.deliveries = w'.deliveries ∧ w'.deliveries.length = 1 ∧
      w'.store.registrations = [] ∧ app.resourceVersion = .str "1" := by
  let behaviour : Behaviour := fun listener _ _ => .unlisten .added listener (.done ())
  let package : Package :=
    { name := .str "p", ns := .str "apps", refName := .str "p.example.com", version := "1.0.0" }
  let install : PackageInstall :=
    { name := .str "web", ns := .str "apps"
      spec := { packageRef := some { refName := "p.example.com" } } }
  let start : Store :=
    (Change.register .added 7).apply
      ((Change.add (.package package)).apply ((Change.add (.packageInstall install)).apply {}))
  let id := (Resource.packageInstall install).id
  have hb : behaviour.Silent := fun _ _ _ => ⟨trivial, trivial⟩
  have hreached : start.Reached Change.any :=
    .change _ trivial (.change _ trivial (.change _ trivial .empty))
  have hkeys : start.KeysDistinct := by
    unfold Store.KeysDistinct
    decide +kernel
  have hrun := @reconcile_effect behaviour { store := start } hb hreached hkeys {} id
  have hfirst : ((reconcile {} id).run behaviour { store := start }).1.toOption.map
      (·.resourceVersion) = some (.str "1") := by decide +kernel
  have hcalls : ((reconcile {} id).run behaviour { store := start }).2.deliveries.length = 1 ∧
      ((reconcile {} id).run behaviour { store := start }).2.store.registrations = [] := by
    decide +kernel
  rcases hrun with ⟨e, _, hrun, _⟩ | ⟨_, _, _, app, w', _, _, _, hrun, _, hagain⟩
  · rw [hrun] at hfirst
    cases hfirst
  · obtain ⟨w'', hrun', hstore, hdeliveries⟩ := hagain rfl
    rw [hrun] at hfirst hcalls
    exact ⟨behaviour, { store := start }, id, app, w', w'', hb, hreached, hkeys, rfl, hrun, hrun',
      hstore, hdeliveries, hcalls.1, hcalls.2, Option.some.inj hfirst⟩

end Reconciliation

end AppSynthesis
