/-
AppSynthesis.Proofs.Controller.Convergence — a controller keeps every install
settled.

* `Store.Handled` — what the listener of a controller sees to when it is shown a
  resource: an install is settled, and so is every install that asks for a package.
* `onAdded_run`, `flush_run`, `notify_run` — that it does, when it is called once,
  when it is shown what is there, and among all listeners.
* `add_package_settles` — an added package unsettles no install but those that asked for
  the one it replaced and do not ask for it.
* `Controlled` — the live stores that come about when a controller is started and
  installs and packages are added in any order; `Controlled.converged`, in all of them every
  install is settled (`controlled_settled`).

The invariant is that every install is settled. Adding an install cannot unsettle
another one, and adding a package unsettles at most those that ask for it
(`resolvePackage_write`); these are what the listener is called about.
-/
import AppSynthesis.Proofs.Controller.Settled
import AppSynthesis.Proofs.Resolution

namespace AppSynthesis

open Store (Change)

/-! ## What a call sees to -/

/-- What the listener of a controller sees to when it is shown a resource. -/
def Store.Handled (config : ControllerConfig) (s : Store) : Resource → Prop
  | .app _ => True
  | .packageInstall install => s.Settled config install
  | .package package =>
    ∀ install ∈ s.installs, install.asksFor package = true → s.Settled config install

/-- The resource, if it is an install, is in the store. -/
def Store.Knows (s : Store) (obj : Resource) : Prop :=
  ∀ install, obj = .packageInstall install → install ∈ s.installs

theorem Store.Advanced.handled {config : ControllerConfig} {own : ListenerId} {s t : Store}
    (h : s.Advanced config own t) {obj : Resource} (hknown : s.Knows obj)
    (hs : s.Handled config obj) : t.Handled config obj := by
  cases obj with
  | app x => trivial
  | packageInstall install => exact h.settled install (hknown install rfl) hs
  | package package =>
    intro install hinstall hasks
    rw [h.installs] at hinstall
    exact h.settled install hinstall (hs install hinstall hasks)

theorem Store.Advanced.knows {config : ControllerConfig} {own : ListenerId} {s t : Store}
    (h : s.Advanced config own t) {obj : Resource} (hknown : s.Knows obj) : t.Knows obj :=
  fun install hobj => h.installs ▸ hknown install hobj

section Calls

variable {behaviour : Behaviour} {own : ListenerId} {config : ControllerConfig} {w : LiveStore}

/-- Installs that are reconciled in turn are settled in the end. -/
theorem forEach_tryReconcile_run (hb : behaviour.Watches own config) (depth : Nat) :
    ∀ (installs : List PackageInstall) {w : LiveStore}, w.store.WellFormed →
      (∀ install ∈ installs, install ∈ w.store.installs) →
      ∃ w', (Script.forEach installs fun install =>
          tryReconcile config (Resource.packageInstall install).id).runWith
            (deliver behaviour depth) w = (.ok (), w') ∧
        w.store.Advanced config own w'.store ∧
        ∀ install ∈ installs, w'.store.Settled config install
  | [], w, hw, _ => ⟨w, rfl, .refl hw, by simp⟩
  | install :: rest, w, hw, hall => by
    have hinstall : install ∈ w.store.installs := hall install List.mem_cons_self
    obtain ⟨w₁, hrun₁, hadvanced₁, hsettled₁⟩ := tryReconcile_run hb depth hw hinstall
    have hrest : ∀ x ∈ rest, x ∈ w₁.store.installs := fun x hx =>
      hadvanced₁.installs ▸ hall x (List.mem_cons_of_mem install hx)
    obtain ⟨w₂, hrun₂, hadvanced₂, hsettled₂⟩ :=
      forEach_tryReconcile_run hb depth rest hadvanced₁.wellFormed hrest
    refine ⟨w₂, ?_, hadvanced₁.trans hadvanced₂, fun x hx => ?_⟩
    · rw [Script.forEach, Script.runWith_bind, hrun₁]
      exact hrun₂
    · rcases List.mem_cons.mp hx with rfl | hx
      · exact hadvanced₂.settled x (hadvanced₁.installs ▸ hinstall) hsettled₁
      · exact hsettled₂ x hx

/-- The listener of a controller never fails, and sees to what it is shown. -/
theorem onAdded_run (hb : behaviour.Watches own config) (depth : Nat) (hw : w.store.WellFormed)
    {obj : Resource} (hknown : w.store.Knows obj) :
    ∃ w', (onAdded config obj.id obj).runWith (deliver behaviour depth) w = (.ok (), w') ∧
      w.store.Advanced config own w'.store ∧ w'.store.Handled config obj := by
  cases obj with
  | app x => exact ⟨w, rfl, .refl hw, trivial⟩
  | packageInstall install => exact tryReconcile_run hb depth hw (hknown install rfl)
  | package package =>
    obtain ⟨w', hrun, hadvanced, hsettled⟩ := forEach_tryReconcile_run hb depth
      (w.store.installs.filter (·.asksFor package)) hw fun _ h => (List.mem_filter.mp h).1
    refine ⟨w', ?_, hadvanced, fun install hinstall hasks => hsettled install ?_⟩
    · unfold onAdded
      simp only [Script.runWith, Store.filterMap_list_install]
      exact hrun
    · rw [hadvanced.installs] at hinstall
      exact List.mem_filter.mpr ⟨hinstall, hasks⟩

/-- A call of the controller's listener, at the depth that is left for it. -/
theorem deliver_own (hb : behaviour.Watches own config) (depth : Nat) (hw : w.store.WellFormed)
    (event : StoreEvent) (fired : Bool) {obj : Resource} (hknown : w.store.Knows obj) :
    ∃ w', deliver behaviour (depth + 1) ⟨own, event, fired, obj.id, obj⟩ w = (.ok (), w') ∧
      w.store.Advanced config own w'.store ∧ w'.store.Handled config obj := by
  unfold deliver
  rw [hb.controller]
  exact onAdded_run hb depth (w := w.recorded _) hw hknown

/-- A new controller that is shown what is there sees to all of it. -/
theorem flush_run (hb : behaviour.Watches own config) (depth : Nat) :
    ∀ (objects : List (ResourceId × Resource)) {w : LiveStore}, w.store.WellFormed →
      (∀ e ∈ objects, e.1 = e.2.id ∧ w.store.Knows e.2) →
      ∃ w', flush (deliver behaviour (depth + 1)) own objects w = (.ok (), w') ∧
        w.store.Advanced config own w'.store ∧ ∀ e ∈ objects, w'.store.Handled config e.2
  | [], w, hw, _ => ⟨w, rfl, .refl hw, by simp⟩
  | (id, obj) :: rest, w, hw, hall => by
    obtain ⟨hid, hknown⟩ := hall (id, obj) List.mem_cons_self
    obtain rfl : id = obj.id := hid
    obtain ⟨w₁, hrun₁, hadvanced₁, hhandled₁⟩ := deliver_own hb depth hw .added false hknown
    have hrest : ∀ e ∈ rest, e.1 = e.2.id ∧ w₁.store.Knows e.2 := fun e he =>
      ⟨(hall e (List.mem_cons_of_mem _ he)).1,
        hadvanced₁.knows (hall e (List.mem_cons_of_mem _ he)).2⟩
    obtain ⟨w₂, hrun₂, hadvanced₂, hhandled₂⟩ :=
      flush_run hb depth rest hadvanced₁.wellFormed hrest
    refine ⟨w₂, ?_, hadvanced₁.trans hadvanced₂, fun e he => ?_⟩
    · rw [flush, hrun₁]
      exact hrun₂
    · rcases List.mem_cons.mp he with rfl | he
      · exact hadvanced₂.handled (hadvanced₁.knows hknown) hhandled₁
      · exact hhandled₂ e he

/-- One of the listeners that are called about a resource. -/
theorem notifyOne_run (hb : behaviour.Watches own config) (depth : Nat) (hw : w.store.WellFormed)
    {obj : Resource} (hknown : w.store.Knows obj) (listener : ListenerId) :
    w.store.Advanced config own (notifyOne (deliver behaviour (depth + 1))
      ⟨listener, .added, true, obj.id, obj⟩ w).store ∧
    (listener = own → (notifyOne (deliver behaviour (depth + 1))
      ⟨listener, .added, true, obj.id, obj⟩ w).store.Handled config obj) := by
  by_cases hown : listener = own
  · obtain ⟨w', hrun, hadvanced, hhandled⟩ := deliver_own hb depth hw .added true hknown
    subst hown
    unfold notifyOne
    rw [hrun]
    exact ⟨hadvanced, fun _ => hhandled⟩
  · refine ⟨.of_relistened hw ?_, fun h => absurd h hown⟩
    exact notifyOne_keeps (deliver_quiet hb w.store (depth + 1)) (fun h => absurd h hown)
      (.refl own w.store)

/-- Among all listeners that are called about a resource, the controller's sees to
it. -/
theorem notify_run (hb : behaviour.Watches own config) (depth : Nat) {obj : Resource}
    (listeners : List ListenerId) (hw : w.store.WellFormed) (hknown : w.store.Knows obj) :
    w.store.Advanced config own (listeners.foldl (fun w listener =>
      notifyOne (deliver behaviour (depth + 1)) ⟨listener, .added, true, obj.id, obj⟩ w) w).store ∧
    (own ∈ listeners → (listeners.foldl (fun w listener =>
      notifyOne (deliver behaviour (depth + 1)) ⟨listener, .added, true, obj.id, obj⟩
        w) w).store.Handled config obj) := by
  induction listeners generalizing w with
  | nil => exact ⟨.refl hw, fun h => nomatch h⟩
  | cons listener rest ih =>
    obtain ⟨hadvanced, hhandled⟩ := notifyOne_run hb depth hw hknown listener
    obtain ⟨hrest, hresthandled⟩ := ih hadvanced.wellFormed (hadvanced.knows hknown)
    refine ⟨hadvanced.trans hrest, fun hown => ?_⟩
    rcases List.mem_cons.mp hown with rfl | hown
    · exact hrest.handled (hadvanced.knows hknown) (hhandled rfl)
    · exact hresthandled hown

end Calls

/-! ## What a write may unsettle -/

namespace Store.WellFormed

variable {config : ControllerConfig} {s : Store}

/-- Writing a package that an install does not ask for, over none that it asks for, leaves the
package that it means as it is. -/
theorem resolvePackage_write (hs : s.WellFormed) {package : Package}
    (hformed : (Resource.package package).WellFormed) {install : PackageInstall}
    (hasks : install.asksFor package = false)
    (hold : ∀ old, s.find? (Resource.package package).id = some (.package old) →
      install.asksFor old = false) (globalNamespace : Option String) :
    resolvePackage (s.write (.package package)).packages install globalNamespace =
      resolvePackage s.packages install globalNamespace := by
  refine resolvePackage_congr fun refName hrefName => ?_
  have hother : ∀ p : Package, install.asksFor p = false → p.refName ≠ .str refName := by
    intro p hp h
    unfold PackageInstall.asksFor at hp
    rw [hrefName, h] at hp
    exact absurd (Value.same_str.mpr rfl) (Bool.eq_false_iff.mp hp)
  unfold candidates packages
  rw [List.filter_filterMap, List.filter_filterMap]
  refine filterMap_place _ ?_ fun e he hsame => ?_
  · simp [stamped, Resource.package?, hother package hasks]
  · have hid : e.1 = (Resource.package package).id := hs.key_eq he hsame
    cases hobj : e.2 with
    | app x => rfl
    | packageInstall x => rfl
    | package old =>
      have hfind : s.find? (Resource.package package).id = some (.package old) :=
        (hs.find?_iff hformed.isText).mpr (hid ▸ hobj ▸ he)
      simp [Resource.package?, hother old (hold old hfind)]

/-- Writing a package or an install leaves the Apps as they are. -/
theorem appOf_write (hs : s.WellFormed) {obj : Resource} (hobj : obj.WellFormed)
    (hkind : obj.kind ≠ .app) {install : PackageInstall}
    (hinstall : (Resource.packageInstall install).WellFormed) :
    (s.write obj).find? install.appId = s.find? install.appId := by
  rw [hs.find?_write hobj (appId_isText hinstall), if_neg]
  intro h
  exact hkind (Kind.name_inj.mp ((Resource.id_kind obj).symm.trans (congrArg ResourceId.kind h)))

end Store.WellFormed

/-! ## Runs of a controller -/

/-- What is kept up: every install is settled, and the controller listens. -/
structure Store.Converged (config : ControllerConfig) (own : ListenerId) (s : Store) : Prop where
  wellFormed : s.WellFormed
  listening : (.added, own) ∈ s.registrations
  settled : ∀ install ∈ s.installs, s.Settled config install

/-- Reconciling keeps up what is kept up, except where it is called for. -/
theorem Store.Advanced.converged {config : ControllerConfig} {own : ListenerId} {s t : Store}
    (h : s.Advanced config own t) (hlistening : (.added, own) ∈ s.registrations)
    (hsettled : ∀ install ∈ s.installs, s.Settled config install ∨ t.Settled config install) :
    t.Converged config own where
  wellFormed := h.wellFormed
  listening := h.listening hlistening
  settled := by
    intro install hinstall
    rw [h.installs] at hinstall
    rcases hsettled install hinstall with hs | ht
    · exact h.settled install hinstall hs
    · exact ht

section Runs

variable {behaviour : Behaviour} {own : ListenerId} {config : ControllerConfig} {w : LiveStore}

/-- A controller that is started settles every install. -/
theorem startController_run (hb : behaviour.Watches own config) (hw : w.store.WellFormed) :
    ((startController own).run behaviour w).1 = .ok () ∧
      ((startController own).run behaviour w).2.store.Converged config own := by
  have hregistered : (w.store.register .added own).WellFormed :=
    hw.of_sublist rfl hw.sound.refusals (List.Sublist.refl _)
  have hknows : ∀ e ∈ w.store.objects, e.1 = e.2.id ∧ (w.store.register .added own).Knows e.2 := by
    intro e he
    refine ⟨(hw.objects e he).1, fun install hinstall => ?_⟩
    exact List.mem_filterMap.mpr ⟨e.2, List.mem_map_of_mem he, by rw [hinstall]; rfl⟩
  obtain ⟨w', hrun, hadvanced, hhandled⟩ := flush_run hb 999 w.store.objects
    (w := { w with store := w.store.register .added own }) hregistered hknows
  have hstart : (startController own).run behaviour w = (.ok (), w') := by
    unfold startController Script.run
    simp only [Script.runWith, Script.runWith_ofExcept]
    exact hrun
  rw [hstart]
  refine ⟨rfl, hadvanced.converged ?_ fun install hinstall => Or.inr ?_⟩
  · exact List.mem_append_right _ (List.mem_singleton.mpr rfl)
  · obtain ⟨obj, hobj, hmem⟩ := List.mem_filterMap.mp hinstall
    obtain ⟨e, he, rfl⟩ := List.mem_map.mp hobj
    have hsettled := hhandled e he
    cases hkind : e.2 with
    | app x => rw [hkind] at hmem; cases hmem
    | packageInstall x =>
      rw [hkind] at hmem hsettled
      exact Option.some.inj hmem ▸ hsettled
    | package x => rw [hkind] at hmem; cases hmem

/-- An install that was written is in the store. -/
theorem Store.WellFormed.knows_write {s : Store} (hs : s.WellFormed) {obj : Resource}
    (hobj : obj.WellFormed) : (s.write obj).Knows obj := by
  rintro install rfl
  have hfind := hs.find?_write hobj hobj.isText
  rw [if_pos rfl] at hfind
  obtain ⟨i, hmem, _⟩ := Store.find?_mem hfind
  exact List.mem_filterMap.mpr ⟨_, List.mem_map_of_mem hmem, rfl⟩

/-- Adding a resource that is no App: it stays as it is, or it is written and the
controller sees to it. -/
theorem add_run (hb : behaviour.Watches own config) (hw : w.store.Converged config own)
    {obj : Resource} (hobj : obj.WellFormed) (hkind : obj.kind ≠ .app) :
    ((Script.add obj .ofExcept).run behaviour w).2.store = w.store ∨
    ((w.store.write obj).Advanced config own
        ((Script.add obj .ofExcept).run behaviour w).2.store ∧
      ((Script.add obj .ofExcept).run behaviour w).2.store.Handled config obj) := by
  have hstamped : w.store.stamped obj = obj := by
    cases obj with
    | app x => exact absurd rfl hkind
    | packageInstall x => rfl
    | package x => rfl
  have hlisteners : own ∈ (w.store.write obj).listeners .added :=
    List.mem_map.mpr ⟨(.added, own), List.mem_filter.mpr ⟨hw.listening, by simp⟩, rfl⟩
  rw [Script.run_add]
  unfold LiveStore.add
  rcases Store.add_cases hw.wellFormed.sound.refusals obj with
    ⟨e, _, hadd⟩ | ⟨_, _, hadd⟩ | ⟨_, _, hadd⟩
  · rw [hadd]
    exact Or.inl rfl
  · rw [hadd]
    exact Or.inl rfl
  · rw [hadd, hstamped]
    obtain ⟨hadvanced, hhandled⟩ := notify_run hb 999 ((w.store.write obj).listeners .added)
      (w := { w with store := w.store.write obj }) (hw.wellFormed.write hobj)
      (hw.wellFormed.knows_write hobj)
    exact Or.inr ⟨hadvanced, hhandled hlisteners⟩

theorem add_install_run (hb : behaviour.Watches own config) (hw : w.store.Converged config own)
    {x : PackageInstall} (hx : (Resource.packageInstall x).WellFormed) :
    ((Script.add (.packageInstall x) .ofExcept).run behaviour w).2.store.Converged config own := by
  rcases add_run hb hw hx nofun with hsame | ⟨hadvanced, hhandled⟩
  · exact hsame ▸ hw
  · refine hadvanced.converged hw.listening fun install hinstall => ?_
    have hpackages : (w.store.write (.packageInstall x)).packages = w.store.packages :=
      hw.wellFormed.sound.packages_write nofun
    obtain ⟨obj, hobj, hmem⟩ := List.mem_filterMap.mp hinstall
    obtain ⟨e, he, rfl⟩ := List.mem_map.mp hobj
    rcases Store.mem_place he with ⟨hwritten, _⟩ | he
    · rw [hwritten] at hmem
      exact Or.inr (Option.some.inj hmem ▸ hhandled)
    · -- Any other install was settled before, and looks at the same package and App.
      have hbefore : install ∈ w.store.installs :=
        List.mem_filterMap.mpr ⟨e.2, List.mem_map_of_mem he, hmem⟩
      have hfind := hw.wellFormed.appOf_write hx nofun (hw.wellFormed.find?_install hbefore).1
      refine Or.inl ?_
      unfold Store.Settled Store.appOf
      rw [hpackages, hfind]
      exact hw.settled install hbefore

/-- After a package was added, an install is settled if it asks for the package, or if it
did not ask for the one that was replaced, if any. -/
theorem add_package_settles (hb : behaviour.Watches own config) (hw : w.store.Converged config own)
    {x : Package} (hx : (Resource.package x).WellFormed) {install : PackageInstall}
    (hinstall : install ∈ ((Script.add (.package x) .ofExcept).run behaviour w).2.store.installs)
    (hasks : install.asksFor x = true ∨
      ∀ old, w.store.find? (Resource.package x).id = some (.package old) →
        install.asksFor old = false) :
    ((Script.add (.package x) .ofExcept).run behaviour w).2.store.Settled config install := by
  rcases add_run hb hw hx nofun with hsame | ⟨hadvanced, hhandled⟩
  · rw [hsame] at hinstall ⊢
    exact hw.settled install hinstall
  · by_cases hx' : install.asksFor x = true
    · exact hhandled install hinstall hx'
    · have hinstalls : (w.store.write (.package x)).installs = w.store.installs :=
        hw.wellFormed.sound.installs_write nofun
      rw [hadvanced.installs] at hinstall
      have hmeans := hw.wellFormed.resolvePackage_write hx (Bool.eq_false_iff.mpr hx')
        (hasks.resolve_left hx') config.globalNamespace
      refine hadvanced.settled install hinstall ?_
      rw [hinstalls] at hinstall
      have hfind := hw.wellFormed.appOf_write hx nofun (hw.wellFormed.find?_install hinstall).1
      unfold Store.Settled Store.appOf
      rw [hmeans, hfind]
      exact hw.settled install hinstall

/-- Whether an install asks for a package depends on nothing but its name. -/
theorem PackageInstall.asksFor_of_same {install : PackageInstall} {p q : Package}
    (h : p.refName.same q.refName = true) (hp : install.asksFor p = true) :
    install.asksFor q = true := by
  unfold asksFor at hp ⊢
  cases hname : install.refName? with
  | none =>
    rw [hname] at hp
    rw [Value.same_null.mp hp, Value.null_same] at h
    exact Value.same_null.mpr h
  | some refName =>
    rw [hname] at hp
    rw [Value.same_str.mp hp, Value.str_same] at h
    exact Value.same_str.mpr h

theorem add_package_run (hb : behaviour.Watches own config) (hw : w.store.Converged config own)
    {x : Package} (hx : (Resource.package x).WellFormed)
    (hname : ∀ old, w.store.find? (Resource.package x).id = some (.package old) →
      old.refName.same x.refName = true) :
    ((Script.add (.package x) .ofExcept).run behaviour w).2.store.Converged config own := by
  have hkept : ((Script.add (.package x) .ofExcept).run behaviour w).2.store.WellFormed ∧
      (.added, own) ∈
        ((Script.add (.package x) .ofExcept).run behaviour w).2.store.registrations := by
    rcases add_run hb hw hx nofun with hsame | ⟨hadvanced, _⟩
    · rw [hsame]
      exact ⟨hw.wellFormed, hw.listening⟩
    · exact ⟨hadvanced.wellFormed, hadvanced.listening hw.listening⟩
  refine ⟨hkept.1, hkept.2, fun install hinstall => add_package_settles hb hw hx hinstall ?_⟩
  by_cases hasks : install.asksFor x = true
  · exact Or.inl hasks
  · refine Or.inr fun old hold => Bool.eq_false_iff.mpr fun hasksOld => hasks ?_
    exact PackageInstall.asksFor_of_same (hname old hold) hasksOld

/-- What comes of a live store when a controller is started on it, and installs and
packages are added in any order. A package that is added again keeps the name
that installs ask for. -/
inductive Controlled (behaviour : Behaviour) (own : ListenerId) (w : LiveStore) : LiveStore → Prop
  | started : Controlled behaviour own w ((startController own).run behaviour w).2
  | install {v : LiveStore} (x : PackageInstall) : (Resource.packageInstall x).WellFormed →
      Controlled behaviour own w v →
      Controlled behaviour own w ((Script.add (.packageInstall x) .ofExcept).run behaviour v).2
  | package {v : LiveStore} (x : Package) : (Resource.package x).WellFormed →
      (∀ old, v.store.find? (Resource.package x).id = some (.package old) →
        old.refName.same x.refName = true) →
      Controlled behaviour own w v →
      Controlled behaviour own w ((Script.add (.package x) .ofExcept).run behaviour v).2

/-- All of them are kept up. -/
theorem Controlled.converged (hb : behaviour.Watches own config) (hw : w.store.WellFormed)
    {v : LiveStore} (h : Controlled behaviour own w v) : v.store.Converged config own := by
  induction h with
  | started => exact (startController_run hb hw).2
  | install x hx _ ih => exact add_install_run hb ih hx
  | package x hx hname _ ih => exact add_package_run hb ih hx hname

/-- **A controller keeps every install settled.** It starts on any store of
well-formed resources; from then on, whatever installs and packages are added, and
in whatever order, the App of every install whose package and App can be told is
stored and is the one that the install asks for. -/
theorem controlled_settled (hb : behaviour.Watches own config)
    (hw : w.store.Reached Change.any) (hobjects : ∀ e ∈ w.store.objects, e.2.WellFormed) :
    ((startController own).run behaviour w).1 = .ok () ∧
      ∀ v, Controlled behaviour own w v →
        ∀ install ∈ v.store.installs, v.store.Settled config install := by
  have hformed : w.store.WellFormed := .of_reached hw hobjects
  exact ⟨(startController_run hb hformed).1,
    fun v hv => (hv.converged hb hformed).settled⟩

/-- An install waits for its package, and is settled when the package comes. -/
theorem controlled_settled_waiting :
    ∃ (behaviour : Behaviour) (v : LiveStore) (install : PackageInstall),
      behaviour.Watches 0 {} ∧ Controlled behaviour 0 {} v ∧
      v.store.Settled {} install ∧
      (v.store.appOf install).map (fun a => a.annotations) =
        some (.map none [(.str Annotations.packageRefName, .str "p.example.com"),
          (.str Annotations.packageVersion, .str "2.0.0")]) := by
  let behaviour : Behaviour := fun listener id obj =>
    if listener = 0 then onAdded {} id obj else .done ()
  let asked : PackageRef :=
    { refName := "p.example.com", versionSelection := some { constraints := some "2.0.0" } }
  let install : PackageInstall :=
    { name := .str "web", ns := .str "apps", spec := { packageRef := some asked } }
  let package : Package :=
    { name := .str "p", ns := .str "apps", refName := .str "p.example.com", version := "2.0.0" }
  have hb : behaviour.Watches 0 {} := by
    refine ⟨fun id obj => if_pos rfl, fun listener hne id obj => ?_⟩
    show (if listener = 0 then onAdded {} id obj else .done ()).Only _
    rw [if_neg hne]
    trivial
  have hinstall : (Resource.packageInstall install).WellFormed := ⟨rfl, rfl, rfl⟩
  have hpackage : (Resource.package package).WellFormed := ⟨rfl, rfl, rfl⟩
  have hstarted : Controlled behaviour 0 {} ((startController 0).run behaviour {}).2 := .started
  have hwaiting := hstarted.install install hinstall
  have hnew : ∀ old, ((Script.add (.packageInstall install) .ofExcept).run behaviour
      ((startController 0).run behaviour {}).2).2.store.find? (Resource.package package).id =
        some (.package old) → old.refName.same package.refName = true := by
    intro old hold
    rw [show Store.find? _ (Resource.package package).id = none by decide +kernel] at hold
    cases hold
  have hrun := hwaiting.package package hpackage hnew
  have hsettled := (controlled_settled hb .empty (by simp)).2 _ hrun install (by decide +kernel)
  exact ⟨behaviour, _, install, hb, hrun, hsettled, by decide +kernel⟩

end Runs

end AppSynthesis
