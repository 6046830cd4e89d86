/-
AppSynthesis.Proofs.Controller.Settled — what one reconciliation achieves when
nobody else writes.

* `Store.Settled` — an install has the App that it asks for, if that can be told.
* `Behaviour.Watches` — the listener of a controller, among others that write
  nothing. What they do comes down to other registrations (`Store.Relistened`).
* `Store.Advanced` — what comes of a store by reconciling: only Apps change, and
  no install that was settled is left unsettled.
* `Store.WellFormed.write_newApp` — writing the App of an install is such an
  advance, and settles the install.
* `tryReconcile_run` — so is a whole reconciliation, and it never fails.

That the install is settled after its App was written rests on two facts about the
synthesis: it changes nothing when it is repeated, and it does not look at the
version that the store has given to the App in the meantime
(`Rebuild.apply_withVersion`).
-/
import AppSynthesis.Proofs.Controller.Alone
import AppSynthesis.Proofs.Synthesis.Rebuild
import AppSynthesis.Proofs.Synthesis.WellFormed

namespace AppSynthesis

open Store (Change)

/-! ## Settled installs -/

/-- If the package of an install and the App that it asks for can be told, that is
the App that is stored. -/
def Store.Settled (config : ControllerConfig) (s : Store) (install : PackageInstall) : Prop :=
  ∀ package desired,
    resolvePackage s.packages install config.globalNamespace = .ok package →
    newApp (s.appOf install) install package config.options = .ok desired →
    ∃ a, s.find? install.appId = some (.app a) ∧
      (a = desired ∨ App.schema.same a desired = true)

/-! ## Listeners that write nothing -/

/-- A listener other than `own` is registered or taken away; nothing is written. -/
def Store.Change.Quiet (own : ListenerId) : Change → Prop
  | .register _ listener => listener ≠ own
  | .unregister _ listener => listener ≠ own
  | _ => False

/-- The listener `own` is a controller, and the others write nothing. -/
structure Behaviour.Watches (behaviour : Behaviour) (own : ListenerId)
    (config : ControllerConfig) : Prop where
  controller : ∀ id obj, behaviour own id obj = onAdded config id obj
  others : ∀ listener, listener ≠ own → ∀ id obj,
    (behaviour listener id obj).Only (Change.Quiet own)

/-- A controller is the only listener that does anything. -/
def Behaviour.controller (own : ListenerId) (config : ControllerConfig) : Behaviour :=
  fun listener id obj => if listener = own then onAdded config id obj else .done ()

theorem Behaviour.controller_watches (own : ListenerId) (config : ControllerConfig) :
    (Behaviour.controller own config).Watches own config where
  controller _ _ := if_pos rfl
  others listener hne id obj := by
    show (if listener = own then onAdded config id obj else .done ()).Only _
    rw [if_neg hne]
    trivial

/-- The second store is the first with other registrations. -/
def Store.Relistened (own : ListenerId) (s t : Store) : Prop :=
  ∃ registrations, t = { s with registrations } ∧
    ((.added, own) ∈ s.registrations → (.added, own) ∈ registrations)

theorem Store.Relistened.refl (own : ListenerId) (s : Store) : s.Relistened own s :=
  ⟨s.registrations, rfl, id⟩

theorem Store.Relistened.quiet {own : ListenerId} {s t : Store} (h : s.Relistened own t)
    {c : Change} (hc : c.Quiet own) : s.Relistened own (c.apply t) := by
  obtain ⟨registrations, rfl, hown⟩ := h
  cases c with
  | add obj => exact hc.elim
  | delete id => exact hc.elim
  | register event listener =>
    exact ⟨_, rfl, fun h => List.mem_append_left _ (hown h)⟩
  | unregister event listener =>
    refine ⟨_, rfl, fun h => (List.mem_erase_of_ne ?_).mpr (hown h)⟩
    exact fun he => hc (Prod.mk.inj he).2.symm

/-- A call about an App changes no more than registrations, and so does any call
to another listener. -/
theorem deliver_quiet {behaviour : Behaviour} {own : ListenerId} {config : ControllerConfig}
    (hb : behaviour.Watches own config) (s : Store) (depth : Nat) :
    (deliver behaviour depth).Keeps (s.Relistened own)
      fun d => d.listener = own → ∃ x, d.object = .app x := by
  have hquiet : ∀ c : Change, c.Quiet own →
      ∀ t, s.Relistened own t → s.Relistened own (c.apply t) :=
    fun _ hc _ ht => ht.quiet hc
  refine deliver_keeps hquiet ?_ ?_ depth
  · intro d hd hown
    unfold Delivery.Due at hd
    split at hd
    · rcases hd with ⟨_, h⟩ | ⟨_, h⟩ <;> exact h.elim
    · exact absurd hown hd
  · intro d hd
    by_cases hown : d.listener = own
    · obtain ⟨x, hx⟩ := hd hown
      rw [hown, hb.controller, hx]
      trivial
    · exact hb.others _ hown _ _

/-- So writing an App changes no more than registrations besides. -/
theorem notify_quiet {behaviour : Behaviour} {own : ListenerId} {config : ControllerConfig}
    (hb : behaviour.Watches own config) (depth : Nat) (event : StoreEvent) (id : ResourceId)
    (x : App) (w : LiveStore) :
    w.store.Relistened own (notify (deliver behaviour depth) event id (.app x) w).store :=
  notify_keeps (deliver_quiet hb w.store depth) (fun _ _ => ⟨x, rfl⟩) (.refl own w.store)

/-! ## Advances -/

/-- What comes of a store by reconciling. -/
structure Store.Advanced (config : ControllerConfig) (own : ListenerId) (s t : Store) : Prop where
  wellFormed : t.WellFormed
  installs : t.installs = s.installs
  packages : t.packages = s.packages
  settled : ∀ install ∈ s.installs, s.Settled config install → t.Settled config install
  listening : (.added, own) ∈ s.registrations → (.added, own) ∈ t.registrations

namespace Store

variable {config : ControllerConfig} {own : ListenerId} {s t u : Store}

theorem Advanced.of_relistened (hs : s.WellFormed) (h : s.Relistened own t) :
    s.Advanced config own t := by
  obtain ⟨registrations, rfl, hown⟩ := h
  exact ⟨hs.of_sublist rfl hs.sound.refusals (List.Sublist.refl _), rfl, rfl, fun _ _ h => h, hown⟩

theorem Advanced.refl (hs : s.WellFormed) : s.Advanced config own s :=
  .of_relistened hs (.refl own s)

theorem Advanced.trans (h : s.Advanced config own t) (h' : t.Advanced config own u) :
    s.Advanced config own u where
  wellFormed := h'.wellFormed
  installs := h'.installs.trans h.installs
  packages := h'.packages.trans h.packages
  settled := fun install hi hs => h'.settled install (h.installs ▸ hi) (h.settled install hi hs)
  listening := fun hl => h'.listening (h.listening hl)

/-- An install of a store is well-formed and found under its identity. -/
theorem WellFormed.find?_install (hs : s.WellFormed) {install : PackageInstall}
    (h : install ∈ s.installs) : (Resource.packageInstall install).WellFormed ∧
      s.find? (Resource.packageInstall install).id = some (.packageInstall install) := by
  obtain ⟨obj, hobj, hinstall⟩ := List.mem_filterMap.mp h
  cases obj with
  | app x => cases hinstall
  | packageInstall x =>
    obtain rfl := Option.some.inj hinstall
    exact hs.find?_of_mem hobj
  | package x => cases hinstall

/-- Different installs of a store have different Apps. -/
theorem WellFormed.eq_of_appId (hs : s.WellFormed) {a b : PackageInstall} (ha : a ∈ s.installs)
    (hb : b ∈ s.installs) (h : a.appId = b.appId) : a = b := by
  have hid : (Resource.packageInstall a).id = (Resource.packageInstall b).id := by
    simp only [PackageInstall.appId, ResourceId.mk.injEq] at h
    simp only [Resource.id, h.2.1, h.2.2]
  have hfa := (hs.find?_install ha).2
  rw [hid, (hs.find?_install hb).2] at hfa
  exact (Resource.packageInstall.inj (Option.some.inj hfa)).symm

theorem appId_isText {install : PackageInstall}
    (h : (Resource.packageInstall install).WellFormed) : install.appId.isText = true :=
  h.isText

/-- The App that is stored for a well-formed install. -/
theorem WellFormed.appOf_eq_some (hs : s.WellFormed) {install : PackageInstall}
    (h : (Resource.packageInstall install).WellFormed) {x : App} (hx : s.appOf install = some x) :
    s.find? install.appId = some (.app x) ∧ (Resource.app x).WellFormed ∧
      (Resource.app x).id = install.appId := by
  obtain ⟨obj, hfind, hobj⟩ := Option.bind_eq_some_iff.mp hx
  cases obj with
  | app y =>
    obtain rfl := Option.some.inj hobj
    obtain ⟨hid, hformed⟩ := hs.of_find? (appId_isText h) hfind
    exact ⟨hfind, hformed, hid⟩
  | packageInstall y => cases hobj
  | package y => cases hobj

/-- **Writing the App of an install settles the install and no other is left
unsettled.** -/
theorem WellFormed.write_newApp (hs : s.WellFormed) {install : PackageInstall}
    (hinstall : install ∈ s.installs) {package : Package}
    (hpackage : resolvePackage s.packages install config.globalNamespace = .ok package)
    {desired : App}
    (hmade : newApp (s.appOf install) install package config.options = .ok desired) :
    s.Advanced config own (s.write (.app desired)) ∧
      (s.write (.app desired)).Settled config install := by
  obtain ⟨hformed, _⟩ := hs.find?_install hinstall
  obtain ⟨hdesired, hid⟩ := newApp_wellFormed hformed
    (fun x hx => (hs.appOf_eq_some hformed hx).2) hmade
  have hinstalls : (s.write (.app desired)).installs = s.installs := hs.sound.installs_write nofun
  have hpackages : (s.write (.app desired)).packages = s.packages := hs.sound.packages_write nofun
  have hsettled : (s.write (.app desired)).Settled config install := by
    intro package' desired' hpackage' hmade'
    have hfind := hs.find?_write hdesired (appId_isText hformed)
    rw [if_pos hid] at hfind
    refine ⟨_, hfind, Or.inl ?_⟩
    rw [hpackages, hpackage] at hpackage'
    obtain rfl := Except.ok.inj hpackage'
    have hself : install.name.same install.name = true :=
      (Value.same_of_isText hformed.name).mpr rfl
    have hagain := Rebuild.apply_withVersion (r := ⟨install, package, config.options⟩) hself hmade
      (.str (Numeral.ofNat (s.revision + 1)))
    unfold appOf at hmade'
    rw [hfind] at hmade'
    exact Except.ok.inj (hagain.symm.trans hmade')
  refine ⟨⟨hs.write hdesired, hinstalls, hpackages, fun other hother hbefore => ?_, id⟩, hsettled⟩
  by_cases happ : install.appId = other.appId
  · exact hs.eq_of_appId hinstall hother happ ▸ hsettled
  · have hfind := hs.find?_write hdesired (appId_isText (hs.find?_install hother).1)
    rw [hid, if_neg happ] at hfind
    unfold Settled appOf
    rw [hpackages, hfind]
    exact hbefore

/-- An App that is stored already settles its install. -/
theorem WellFormed.settled_of_holds (hs : s.WellFormed) {install : PackageInstall}
    (hformed : (Resource.packageInstall install).WellFormed) {package : Package}
    (hpackage : resolvePackage s.packages install config.globalNamespace = .ok package)
    {desired : App}
    (hmade : newApp (s.appOf install) install package config.options = .ok desired)
    (hholds : s.holds (.app desired) = true) : s.Settled config install := by
  obtain ⟨_, hid⟩ := newApp_wellFormed hformed (fun x hx => (hs.appOf_eq_some hformed hx).2) hmade
  intro package' desired' hpackage' hmade'
  obtain rfl := Except.ok.inj (hpackage.symm.trans hpackage')
  obtain rfl := Except.ok.inj (hmade.symm.trans hmade')
  unfold holds at hholds
  rw [hid] at hholds
  split at hholds
  · rename_i existing hfind
    cases existing with
    | app a => exact ⟨a, hfind, Or.inr hholds⟩
    | packageInstall x => cases hholds
    | package x => cases hholds
  · cases hholds

end Store

/-! ## One reconciliation -/

section Reconciliation

variable {behaviour : Behaviour} {own : ListenerId} {config : ControllerConfig}
  {install : PackageInstall} {w : LiveStore}

/-- To put the App of an install settles it, whatever the listeners do. -/
theorem put_run (hb : behaviour.Watches own config) (depth : Nat) (hw : w.store.WellFormed)
    (hinstall : install ∈ w.store.installs) {package : Package}
    (hpackage : resolvePackage w.store.packages install config.globalNamespace = .ok package)
    {desired : App}
    (hmade : newApp (w.store.appOf install) install package config.options = .ok desired) :
    w.store.Advanced config own (w.put (deliver behaviour depth) desired).2.store ∧
      (w.put (deliver behaviour depth) desired).2.store.Settled config install := by
  obtain ⟨hformed, _⟩ := hw.find?_install hinstall
  unfold LiveStore.put
  split
  · rename_i hholds
    exact ⟨.refl hw, hw.settled_of_holds hformed hpackage hmade hholds⟩
  · obtain ⟨hadvanced, hsettled⟩ :=
      @Store.WellFormed.write_newApp config own _ hw _ hinstall _ hpackage _ hmade
    have hnotified := notify_quiet hb depth .added (Resource.app desired).id
      (desired.withVersion (.str (Numeral.ofNat (w.store.revision + 1))))
      { w with store := w.store.write (.app desired) }
    have hquiet := @Store.Advanced.of_relistened config own _ _ hadvanced.wellFormed hnotified
    exact ⟨hadvanced.trans hquiet,
      hquiet.settled install (hadvanced.installs ▸ hinstall) hsettled⟩

/-- A reconciliation of an install that is there settles it. What can go wrong is
reported, and then there is nothing to settle. -/
theorem reconcile_run (hb : behaviour.Watches own config) (depth : Nat)
    (hw : w.store.WellFormed) (hinstall : install ∈ w.store.installs) :
    ∃ r w', (reconcile config (Resource.packageInstall install).id).runWith
        (deliver behaviour depth) w = (r, w') ∧
      (∀ e, r = .error e → e.isReported = true) ∧
      w.store.Advanced config own w'.store ∧ w'.store.Settled config install := by
  obtain ⟨hformed, _⟩ := hw.find?_install hinstall
  obtain ⟨written, hwritten⟩ := hw.history
  have hread := hw.sound.installAt_of_mem hinstall
  rw [reconcile_alone hw.sound hwritten]
  rcases hwanted : w.store.wanted config (Resource.packageInstall install).id with e | r
  · refine ⟨.error e, w, rfl, fun e' he => ?_, .refl hw, fun package desired hpackage hmade => ?_⟩
    · obtain rfl := Except.error.inj he
      rcases Store.wanted_error_cases hwanted with h | ⟨install', h', h⟩
      · rw [hread] at h
        cases h
      · obtain rfl := Except.ok.inj (hread.symm.trans h')
        rcases h with h | ⟨package, h⟩
        · exact resolvePackage_reported hformed.ns h
        · refine newApp_reported ?_ hformed.annotations h
          rcases hx : w.store.appOf install with _ | x
          · rfl
          · exact (hw.appOf_eq_some hformed hx).2.1.annotations
    · have h : w.store.wanted config (Resource.packageInstall install).id =
          .ok ⟨install, package, desired⟩ := Store.wanted_eq_ok.mpr ⟨hread, hpackage, hmade⟩
      rw [hwanted] at h
      cases h
  · obtain ⟨_, hpackage, hmade⟩ := Store.wanted_eq_ok.mp hwanted
    rw [Store.install_of_wanted hwanted hread] at hpackage hmade
    obtain ⟨hadvanced, hsettled⟩ := put_run hb depth hw hinstall hpackage hmade
    exact ⟨_, _, rfl, nofun, hadvanced, hsettled⟩

/-- **A reconciliation by the listener never fails, and settles the install.** -/
theorem tryReconcile_run (hb : behaviour.Watches own config) (depth : Nat)
    (hw : w.store.WellFormed) (hinstall : install ∈ w.store.installs) :
    ∃ w', (tryReconcile config (Resource.packageInstall install).id).runWith
        (deliver behaviour depth) w = (.ok (), w') ∧
      w.store.Advanced config own w'.store ∧ w'.store.Settled config install := by
  obtain ⟨r, w', hrun, hreported, hadvanced, hsettled⟩ := reconcile_run hb depth hw hinstall
  unfold tryReconcile
  rw [Script.runWith_recover, Script.runWith_bind, hrun]
  cases r with
  | ok app => exact ⟨w', rfl, hadvanced, hsettled⟩
  | error e =>
    simp only [hreported e rfl, if_true]
    exact ⟨_, rfl, hadvanced, hsettled⟩

end Reconciliation

end AppSynthesis
