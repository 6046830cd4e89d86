/-
AppSynthesis.Proofs.Controller.Alike — two stores in which the same goes on, but for an install.

* `Resource.unversioned` — a resource up to the version that the store gives it.
* `Store.Alike` — two stores with the same packages and, but for an install and its App, with the
  same resources up to versions.
* `Store.Alike.reconciled`, `Store.Alike.reconciled_left` — steps for other installs, made in both
  stores, and steps for the install itself, made in one, keep them alike.
* `Store.Ready` — installs to be reconciled in turn, none of which is an obstacle.
* `forEach_alike`, `notify_alike` — their reconciliations keep the stores alike, and so does
  telling listeners about a package.

The version of an App depends on how often the store was written to, and so on every other
install. It is all that does: the synthesis carries it along (`newApp_withVersion`), and an App
that is compared with the one it was made from has its version (`App.Kept.version`).
-/
import AppSynthesis.Proofs.Controller.Step

namespace AppSynthesis

open Store (Change)

/-! ## Up to versions -/

/-- The resource without the version that the store gave it. -/
def Resource.unversioned : Resource → Resource
  | .app x => .app (x.withVersion .null)
  | obj => obj

/-- What is made of Apps that differ in their versions differs in nothing but the version. -/
theorem newApp_unversioned {x y : Option App} {install : PackageInstall} {package : Package}
    {options : Options} (h : x.map (App.withVersion .null) = y.map (App.withVersion .null)) :
    (newApp x install package options).map (App.withVersion .null) =
      (newApp y install package options).map (App.withVersion .null) := by
  rcases x with _ | x
  · rcases y with _ | y
    · rfl
    · cases h
  · rcases y with _ | y
    · cases h
    · have hxy : x.withVersion .null = y.withVersion .null := Option.some.inj h
      exact (newApp_withVersion x .null).symm.trans (hxy ▸ newApp_withVersion y .null)

/-- Whether two Apps with the same version are the same does not depend on the version. -/
theorem App.same_unversioned {x y : App}
    (h : x.resourceVersion.agrees y.resourceVersion = true) :
    App.schema.same (x.withVersion .null) (y.withVersion .null) = App.schema.same x y := by
  have hversion : Codec.anyText.same x.resourceVersion y.resourceVersion = true := h
  have hnull : Codec.anyText.same .null .null = true := rfl
  simp only [Schema.same, App.schema, Fields.same, App.withVersion, hversion, hnull]

/-- What a reconciliation is about, up to the version of the App. -/
def Wanted.unversioned (r : Wanted) : Wanted := { r with app := r.app.withVersion .null }

namespace Store

variable {A C : PackageInstall} {s t : Store} {config : ControllerConfig}

theorem appId_same : A.appId.same C.appId =
    (Resource.packageInstall A).id.same (Resource.packageInstall C).id := by
  simp only [PackageInstall.appId, Resource.id, ResourceId.same, beq_self_eq_true]

theorem appId_same_install : A.appId.same (Resource.packageInstall C).id = false := by
  have hkind : (Kind.app.name == Kind.packageInstall.name) = false := by decide
  simp only [PackageInstall.appId, Resource.id, ResourceId.same, hkind, Bool.false_and]

theorem install_same_appId : (Resource.packageInstall A).id.same C.appId = false := by
  have hkind : (Kind.packageInstall.name == Kind.app.name) = false := by decide
  simp only [PackageInstall.appId, Resource.id, ResourceId.same, hkind, Bool.false_and]

/-! ## Stores that are alike -/

/-- The two stores have the same packages and, but for an install and its App, the same
resources up to versions. -/
structure Alike (A : PackageInstall) (s t : Store) : Prop where
  packages : t.packages = s.packages
  found : ∀ id : ResourceId, id.isAtomic = true →
    (Resource.packageInstall A).id.same id = false → A.appId.same id = false →
    (t.find? id).map Resource.unversioned = (s.find? id).map Resource.unversioned

/-- An install of a store that is another one than `A`. -/
structure Other (A : PackageInstall) (s : Store) (C : PackageInstall) : Prop where
  read : s.installAt (Resource.packageInstall C).id = .ok C
  apart : (Resource.packageInstall A).id.same (Resource.packageInstall C).id = false

/-- Another install is in both stores. -/
theorem Alike.installAt (h : s.Alike A t) (hC : s.Other A C) :
    t.installAt (Resource.packageInstall C).id = .ok C := by
  obtain ⟨hatomic, hfind⟩ := installAt_eq_ok.mp hC.read
  have hfound := h.found _ hatomic hC.apart appId_same_install
  rw [hfind] at hfound
  refine installAt_eq_ok.mpr ⟨hatomic, ?_⟩
  obtain ⟨obj, hobj, hunversioned⟩ := Option.map_eq_some_iff.mp hfound
  rw [hobj]
  cases obj with
  | app x => cases hunversioned
  | packageInstall x => exact congrArg some hunversioned
  | package x => cases hunversioned

/-- Its App is the same in both, up to the version. -/
theorem Alike.appOf (hs : s.Sound) (h : s.Alike A t) (hC : s.Other A C) :
    (t.appOf C).map (App.withVersion .null) = (s.appOf C).map (App.withVersion .null) := by
  have hfound := h.found C.appId (hs.appId_isAtomic hC.read) install_same_appId
    (appId_same.trans hC.apart)
  have hbind : ∀ o : Option Resource, (o.bind Resource.app?).map (App.withVersion .null) =
      (o.map Resource.unversioned).bind Resource.app? := by
    rintro (_ | (x | x | x)) <;> rfl
  unfold Store.appOf
  rw [hbind, hbind, hfound]

/-- So the same is wanted for it, up to the version. -/
theorem Alike.wanted (hs : s.Sound) (h : s.Alike A t) (hC : s.Other A C) :
    (t.wanted config (Resource.packageInstall C).id).map Wanted.unversioned =
      (s.wanted config (Resource.packageInstall C).id).map Wanted.unversioned := by
  unfold Store.wanted
  rw [hC.read, h.installAt hC, h.packages]
  dsimp only [bind, Except.bind]
  rcases resolvePackage s.packages C config.globalNamespace with e | package
  · rfl
  · have hmade : (newApp (t.appOf C) C package config.options).map (App.withVersion .null) =
        (newApp (s.appOf C) C package config.options).map (App.withVersion .null) :=
      newApp_unversioned (h.appOf hs hC)
    dsimp only
    generalize newApp (t.appOf C) C package config.options = x at hmade ⊢
    generalize newApp (s.appOf C) C package config.options = y at hmade ⊢
    cases x with
    | error e =>
      cases y with
      | error e' => exact congrArg Except.error (Except.error.inj hmade)
      | ok y => cases hmade
    | ok x =>
      cases y with
      | error e' => cases hmade
      | ok y => exact congrArg (fun a => Except.ok (Wanted.mk C package a)) (Except.ok.inj hmade)

/-- Whether the App that is wanted is there already does not depend on its version. -/
theorem Continues.holds_wanted (hs : s.Continues []) {id : ResourceId} {r : Wanted}
    (h : s.wanted config id = .ok r) :
    s.holds (.app r.app) = ((s.appOf r.install).map (App.withVersion .null)).any fun x =>
      App.schema.same x (r.app.withVersion .null) := by
  obtain ⟨hsound, written, hhistory⟩ := hs
  obtain ⟨happId, hatomic, hsame⟩ := hsound.id_wanted h
  obtain ⟨_, _, hmade⟩ := wanted_eq_ok.mp h
  unfold holds
  rw [hsound.find?_congr hatomic happId hsame]
  rcases hfind : s.find? r.install.appId with _ | obj
  · simp only [Store.appOf, hfind, Option.bind_none, Option.map_none, Option.any_none]
  · obtain ⟨x, rfl⟩ := hsound.app_of_find? rfl hfind
    have happ : s.appOf r.install = some x := by simp only [Store.appOf, hfind]; rfl
    rw [happ] at hmade ⊢
    obtain ⟨v, hv⟩ := hhistory.version_text (hhistory.mem_of_find? hfind)
    have hversion : r.app.resourceVersion = .str v := (newApp_kept hmade).version.trans hv
    refine (App.same_unversioned ?_).symm
    rw [hv, hversion]
    exact Value.agrees_str.mpr rfl

/-- To put Apps that differ in their versions keeps stores alike. -/
theorem Alike.put (hs : s.Continues []) (ht : t.Continues []) (h : s.Alike A t)
    (hC : s.Other A C) {r r' : Wanted}
    (hr : s.wanted config (Resource.packageInstall C).id = .ok r)
    (hr' : t.wanted config (Resource.packageInstall C).id = .ok r')
    (hsame : r'.unversioned = r.unversioned) : (s.put r.app).Alike A (t.put r'.app) := by
  have happ : r'.app.withVersion .null = r.app.withVersion .null := congrArg Wanted.app hsame
  have hinstall : r.install = C := install_of_wanted hr hC.read
  have hinstall' : r'.install = C := install_of_wanted hr' (h.installAt hC)
  have hid : (Resource.app r'.app).id = (Resource.app r.app).id :=
    (congrArg (fun a => (Resource.app a).id) happ :)
  have hatomic := (hs.1.id_wanted hr).2.1
  unfold Store.put
  rw [hs.holds_wanted hr, ht.holds_wanted hr', hinstall, hinstall', h.appOf hs.1 hC, happ]
  split
  · exact h
  · have hkind (x : App) : (Resource.app x).kind ≠ .package :=
      (by decide : Kind.app ≠ .package)
    refine ⟨?_, fun id hatomic' hA happA => ?_⟩
    · rw [hs.1.packages_write (hkind _), ht.1.packages_write (hkind _), h.packages]
    · by_cases hhere : (Resource.app r.app).id.same id = true
      · rw [hs.1.find?_write hatomic hatomic' hhere,
          ht.1.find?_write (hid ▸ hatomic) hatomic' (hid ▸ hhere)]
        exact congrArg (fun a => some (Resource.app a)) happ
      · have hother := Bool.eq_false_iff.mpr hhere
        rw [hs.1.find?_write_other hatomic hatomic' hother,
          ht.1.find?_write_other (hid ▸ hatomic) hatomic' (hid ▸ hother)]
        exact h.found id hatomic' hA happA

/-- **Steps for another install keep stores alike**, and end in the same way. -/
theorem Alike.reconciled (hs : s.Continues []) (ht : t.Continues []) (h : s.Alike A t)
    (hC : s.Other A C) :
    (s.reconciled config (Resource.packageInstall C).id).Alike A
        (t.reconciled config (Resource.packageInstall C).id) ∧
      t.verdict config (Resource.packageInstall C).id =
        s.verdict config (Resource.packageInstall C).id := by
  have hwanted : (t.wanted config (Resource.packageInstall C).id).map Wanted.unversioned =
      (s.wanted config (Resource.packageInstall C).id).map Wanted.unversioned := h.wanted hs.1 hC
  unfold Store.reconciled Store.verdict
  rcases hr : s.wanted config (Resource.packageInstall C).id with e | r
  · rcases hr' : t.wanted config (Resource.packageInstall C).id with e' | r'
    · rw [hr, hr'] at hwanted
      obtain rfl := Except.error.inj hwanted
      exact ⟨h, rfl⟩
    · rw [hr, hr'] at hwanted
      cases hwanted
  · rcases hr' : t.wanted config (Resource.packageInstall C).id with e' | r'
    · rw [hr, hr'] at hwanted
      cases hwanted
    · rw [hr, hr'] at hwanted
      exact ⟨h.put hs ht hC hr hr' (Except.ok.inj hwanted), rfl⟩

/-- **Steps for the install itself keep stores alike** when they are made in one of them. -/
theorem Alike.reconciled_left (hs : s.Sound) (h : s.Alike A t)
    (hA : s.installAt (Resource.packageInstall A).id = .ok A) :
    (s.reconciled config (Resource.packageInstall A).id).Alike A t where
  packages := h.packages.trans (hs.packages_reconciled _).symm
  found id hatomic hne happ := by
    rw [hs.find?_reconciled hA hatomic happ]
    exact h.found id hatomic hne happ

theorem Alike.relistened {own : ListenerId} {s' t' : Store} (h : s.Alike A t)
    (hs : s.Relistened own s') (ht : t.Relistened own t') : s'.Alike A t' where
  packages := ht.packages.trans (h.packages.trans hs.packages.symm)
  found id hatomic hne happ := by
    rw [hs.find?, ht.find?]
    exact h.found id hatomic hne happ

/-! ## Many installs -/

/-- Installs of a store, to be reconciled in turn: each of them once, and if `A` is among them,
its reconciliation ends in no error that operators are not told about. -/
structure Ready (config : ControllerConfig) (A : PackageInstall)
    (installs : List PackageInstall) (s : Store) : Prop where
  once : installs.Nodup
  others : ∀ C ∈ installs, C ≠ A → s.Other A C
  read : A ∈ installs → s.installAt (Resource.packageInstall A).id = .ok A
  reported : A ∈ installs →
    ∀ e, s.wanted config (Resource.packageInstall A).id = .error e → e.isReported = true

theorem Ready.head {rest : List PackageInstall} (h : s.Ready config A (C :: rest)) :
    s.installAt (Resource.packageInstall C).id = .ok C := by
  by_cases hCA : C = A
  · exact hCA ▸ h.read (hCA ▸ List.mem_cons_self)
  · exact (h.others C List.mem_cons_self hCA).read

/-- **A step makes the store ready for the rest.** -/
theorem Ready.step {rest : List PackageInstall} (hs : s.Sound)
    (h : s.Ready config A (C :: rest)) :
    (s.reconciled config (Resource.packageInstall C).id).Ready config A rest where
  once := (List.nodup_cons.mp h.once).2
  others D hD hne := by
    obtain ⟨hread, hapart⟩ := h.others D (List.mem_cons_of_mem _ hD) hne
    exact ⟨hs.installAt_reconciled h.head hread, hapart⟩
  read hA := hs.installAt_reconciled h.head (h.read (List.mem_cons_of_mem _ hA))
  reported hA := by
    -- What is wanted for `A` does not change: another install is reconciled, as `A` is yet to come.
    have hread := h.read (List.mem_cons_of_mem _ hA)
    have hne : C ≠ A := fun hCA => (List.nodup_cons.mp h.once).1 (hCA ▸ hA)
    obtain ⟨_, hapart⟩ := h.others C List.mem_cons_self hne
    have happs : C.appId.same A.appId = false := by
      rw [Bool.eq_false_iff]
      intro hsame
      have hsymm : A.appId.same C.appId = true :=
        ResourceId.same_symm (hs.appId_isAtomic h.head) (hs.appId_isAtomic hread) hsame
      rw [appId_same, hapart] at hsymm
      cases hsymm
    rw [hs.wanted_reconciled h.head hread happs]
    exact h.reported (List.mem_cons_of_mem _ hA)

theorem Ready.relistened {own : ListenerId} {s' : Store} {installs : List PackageInstall}
    (h : s.Ready config A installs) (hs : s.Relistened own s') : s'.Ready config A installs := by
  obtain ⟨registrations, rfl, _⟩ := hs
  exact ⟨h.once, fun C hC hne => ⟨(h.others C hC hne).read, (h.others C hC hne).apart⟩, h.read,
    h.reported⟩

end Store

/-! ## Among listeners -/

section Runs

variable {behaviour : Behaviour} {own : ListenerId} {config : ControllerConfig}
  {A : PackageInstall}

/-- **Reconciling many installs keeps stores alike.** -/
theorem forEach_alike (hb : behaviour.Watches own config) (depth : Nat) :
    ∀ (installs : List PackageInstall) {w v : LiveStore}, w.store.Continues [] →
      v.store.Continues [] → w.store.Alike A v.store → w.store.Ready config A installs →
      ((Script.forEach installs fun C =>
          tryReconcile config (Resource.packageInstall C).id).runWith
            (deliver behaviour depth) w).2.store.Alike A
        ((Script.forEach (installs.filter (· ≠ A)) fun C =>
          tryReconcile config (Resource.packageInstall C).id).runWith
            (deliver behaviour depth) v).2.store
  | [], _, _, _, _, h, _ => h
  | C :: rest, w, v, hw, hv, h, hready => by
    obtain ⟨w₁, hrun, hw₁, hstep⟩ :=
      tryReconcile_step hb depth hw (Resource.packageInstall C).id
    have hready₁ := (hready.step hw.1).relistened hstep
    rw [Script.forEach, Script.runWith_bind, hrun]
    by_cases hCA : C = A
    · -- The install itself is reconciled in one of the stores, and the call goes on.
      have hA : A ∈ C :: rest := hCA ▸ List.mem_cons_self
      have hverdict : w.store.verdict config (Resource.packageInstall A).id = .ok () := by
        unfold Store.verdict
        rcases hwanted : w.store.wanted config (Resource.packageInstall A).id with e | r
        · exact if_pos (hready.reported hA e hwanted)
        · rfl
      rw [hCA] at hstep
      have h₁ := (h.reconciled_left hw.1 (hready.read hA)).relistened hstep (.refl own v.store)
      rw [hCA, hverdict, List.filter_cons_of_neg (by simp)]
      exact forEach_alike hb depth rest hw₁ hv h₁ hready₁
    · obtain ⟨v₁, hrun', hv₁, hstep'⟩ :=
        tryReconcile_step hb depth hv (Resource.packageInstall C).id
      obtain ⟨halike, hverdict⟩ :=
        @Store.Alike.reconciled A C _ _ config hw hv h (hready.others C List.mem_cons_self hCA)
      have h₁ := halike.relistened hstep hstep'
      rw [List.filter_cons_of_pos (by simpa using hCA), Script.forEach, Script.runWith_bind, hrun',
        hverdict]
      cases w.store.verdict config (Resource.packageInstall C).id with
      | error e => exact h₁
      | ok _ => exact forEach_alike hb depth rest hw₁ hv₁ h₁ hready₁

/-- What the controller does when it is told about a package. -/
theorem notifyOne_package (hb : behaviour.Watches own config) (depth : Nat) (id : ResourceId)
    (p : Package) (w : LiveStore) :
    (notifyOne (deliver behaviour (depth + 1)) ⟨own, .added, true, id, .package p⟩ w).store =
      ((Script.forEach (w.store.installs.filter (·.asksFor p)) fun C =>
        tryReconcile config (Resource.packageInstall C).id).runWith (deliver behaviour depth)
          (w.recorded ⟨own, .added, true, id, .package p⟩)).2.store := by
  rw [notifyOne_store, deliver, hb.controller]
  unfold onAdded
  simp only [Script.runWith, Store.filterMap_list_install]
  rfl

/-- Telling the listeners about a package keeps stores alike, if the controller is one of them
once at most and the installs that ask for the package are ready. -/
theorem notify_alike (hb : behaviour.Watches own config) (depth : Nat) (id : ResourceId)
    (p : Package) : ∀ (listeners : List ListenerId) {w v : LiveStore}, w.store.Continues [] →
      v.store.Continues [] → w.store.Alike A v.store → listeners.count own ≤ 1 →
      (own ∈ listeners → v.store.installs = w.store.installs.filter (· ≠ A) ∧
        w.store.Ready config A (w.store.installs.filter (·.asksFor p))) →
      (listeners.foldl (fun w listener => notifyOne (deliver behaviour (depth + 1))
          ⟨listener, .added, true, id, .package p⟩ w) w).store.Alike A
        (listeners.foldl (fun w listener => notifyOne (deliver behaviour (depth + 1))
          ⟨listener, .added, true, id, .package p⟩ w) v).store
  | [], _, _, _, _, h, _, _ => h
  | listener :: rest, w, v, hw, hv, h, hone, hown => by
    have hcontinues : (deliver behaviour (depth + 1)).Keeps (Store.Continues []) fun _ => True :=
      deliver_keeps_any (fun c _ hs => hs.apply c) behaviour (depth + 1)
    have hnotified {u : LiveStore} (hu : u.store.Continues []) :=
      notifyOne_keeps hcontinues (d := ⟨listener, .added, true, id, .package p⟩) trivial hu
    have hw₁ := hnotified hw
    have hv₁ := hnotified hv
    by_cases hlistener : listener = own
    · obtain rfl : own = listener := hlistener.symm
      obtain ⟨hinstalls, hready⟩ := hown List.mem_cons_self
      have hrest : rest.count own = 0 := by
        rw [List.count_cons_self] at hone
        omega
      have hloop := forEach_alike hb depth (w.store.installs.filter (·.asksFor p))
        (w := w.recorded ⟨own, .added, true, id, .package p⟩)
        (v := v.recorded ⟨own, .added, true, id, .package p⟩) hw hv h hready
      refine notify_alike hb depth id p rest hw₁ hv₁ ?_ (hrest ▸ Nat.zero_le 1)
        fun hmem => absurd hmem (List.count_eq_zero.mp hrest)
      rw [notifyOne_package hb, notifyOne_package hb, hinstalls]
      rw [List.filter_filter] at hloop ⊢
      simpa only [Bool.and_comm] using hloop
    · have hquiet := fun u : LiveStore => notifyOne_keeps (deliver_quiet hb u.store (depth + 1))
        (d := ⟨listener, .added, true, id, .package p⟩) (fun h => absurd h hlistener)
        (.refl own u.store)
      refine notify_alike hb depth id p rest hw₁ hv₁ (h.relistened (hquiet w) (hquiet v))
        (by rwa [List.count_cons_of_ne hlistener] at hone) fun hmem => ?_
      obtain ⟨hinstalls, hready⟩ := hown (List.mem_cons_of_mem _ hmem)
      rw [(hquiet w).installs, (hquiet v).installs]
      exact ⟨hinstalls, hready.relistened (hquiet w)⟩

end Runs

end AppSynthesis
