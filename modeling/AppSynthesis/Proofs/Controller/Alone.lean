/-
AppSynthesis.Proofs.Controller.Alone — a reconciliation that nobody comes in between
of.

* `Store.installAt`, `Store.appOf` — what a reconciliation reads from a store, and
  `Store.wanted`, what it makes of that: the install, its package, and the App that is to
  be there.
* `LiveStore.put` — that App is there already, or it is written and listeners are told.
* `attemptWrite_alone` — an attempt never conflicts: what it reads is what it writes over.
* `reconcile_alone` — so a reconciliation fails without effect, or puts the App that is
  wanted.
* `Store.wanted_eq_ok`, `Store.wanted_error_cases` — how it comes to one or the other.
* `Store.Sound.installAt_of_mem` — every install of a store is read under its identity.

Nothing is asked of the listeners: they are called when the App is written, and the
reconciliation does nothing after that but log.
-/
import AppSynthesis.Proofs.Controller.Attempt
import AppSynthesis.Proofs.Store.Runs

namespace AppSynthesis

/-! ## What is read -/

/-- The install under an identity, which has to be there. -/
def Store.installAt (s : Store) (id : ResourceId) : Except Error PackageInstall :=
  match s.get id .packageInstall with
  | .error e => .error e
  | .ok (some (.packageInstall install)) => .ok install
  | .ok _ => .error (.noInstall id)

/-- The App stored for an install, if any. -/
def Store.appOf (s : Store) (install : PackageInstall) : Option App :=
  (s.find? install.appId).bind Resource.app?

/-- What a reconciliation is about: an install, its package, and the App that is to be
stored for it. -/
structure Wanted where
  install : PackageInstall
  package : Package
  app : App

/-- What a reconciliation of the install under an identity is about. -/
def Store.wanted (s : Store) (config : ControllerConfig) (id : ResourceId) :
    Except Error Wanted := do
  let install ← s.installAt id
  let package ← resolvePackage s.packages install config.globalNamespace
  let app ← newApp (s.appOf install) install package config.options
  return { install, package, app }

namespace Store

variable {s : Store} {config : ControllerConfig} {id : ResourceId}

theorem installAt_eq_ok {install : PackageInstall} :
    s.installAt id = .ok install ↔
      id.isAtomic = true ∧ s.find? id = some (.packageInstall install) := by
  constructor
  · intro h
    unfold installAt at h
    split at h
    · cases h
    · rename_i hget
      obtain ⟨hid, hfind, _⟩ := get_eq_ok hget
      exact ⟨hid, Except.ok.inj h ▸ hfind⟩
    · cases h
  · rintro ⟨hid, hfind⟩
    have hget : s.get id .packageInstall = .ok (some (.packageInstall install)) := by
      unfold get
      simp only [hid, Bool.not_true, Bool.false_eq_true, if_false, hfind]
      rfl
    unfold installAt
    rw [hget]

/-- An install that is in a store is found. -/
theorem Sound.installAt_of_mem (hs : s.Sound) {install : PackageInstall}
    (h : install ∈ s.installs) :
    s.installAt (Resource.packageInstall install).id = .ok install := by
  obtain ⟨obj, hobj, hinstall⟩ := List.mem_filterMap.mp h
  obtain ⟨e, he, rfl⟩ := List.mem_map.mp hobj
  cases hkind : e.2 with
  | app x => rw [hkind] at hinstall; cases hinstall
  | package x => rw [hkind] at hinstall; cases hinstall
  | packageInstall x =>
    rw [hkind] at hinstall
    obtain rfl := Option.some.inj hinstall
    have hid : e.2.id = (Resource.packageInstall x).id := congrArg Resource.id hkind
    obtain ⟨_, hatomic⟩ := hs.atomic e he
    have hfind := hs.find?_of_mem he hatomic (hs.keyed e he)
    exact installAt_eq_ok.mpr ⟨hid ▸ hatomic, by rw [← hid, hfind, hkind]⟩

theorem wanted_eq_ok {r : Wanted} :
    s.wanted config id = .ok r ↔
      s.installAt id = .ok r.install ∧
        resolvePackage s.packages r.install config.globalNamespace = .ok r.package ∧
        newApp (s.appOf r.install) r.install r.package config.options = .ok r.app := by
  obtain ⟨install, package, app⟩ := r
  unfold wanted
  constructor
  · intro h
    rcases hi : s.installAt id with e | i
    · rw [hi] at h
      cases h
    · rw [hi] at h
      rcases hp : resolvePackage s.packages i config.globalNamespace with e | p
      · simp only [bind, Except.bind, hp] at h
        cases h
      · rcases ha : newApp (s.appOf i) i p config.options with e | a
        · simp only [bind, Except.bind, hp, ha] at h
          cases h
        · simp only [bind, Except.bind, hp, ha] at h
          cases h
          exact ⟨rfl, hp, ha⟩
  · rintro ⟨hi, hp, ha⟩
    simp only [bind, Except.bind, hi, hp, ha]
    rfl

/-- What is wanted under an identity is wanted for the install there. -/
theorem install_of_wanted {r : Wanted} (h : s.wanted config id = .ok r)
    {install : PackageInstall} (hread : s.installAt id = .ok install) : r.install = install :=
  Except.ok.inj ((wanted_eq_ok.mp h).1.symm.trans hread)

/-- What can go wrong before anything is written. -/
theorem wanted_error_cases {e : Error} (h : s.wanted config id = .error e) :
    s.installAt id = .error e ∨
    ∃ install, s.installAt id = .ok install ∧
      (resolvePackage s.packages install config.globalNamespace = .error e ∨
        ∃ package, newApp (s.appOf install) install package config.options = .error e) := by
  unfold wanted at h
  rcases hi : s.installAt id with e' | install
  · rw [hi] at h
    exact Or.inl (congrArg _ (Except.error.inj h))
  · refine Or.inr ⟨install, rfl, ?_⟩
    rw [hi] at h
    rcases hp : resolvePackage s.packages install config.globalNamespace with e' | package
    · simp only [bind, Except.bind, hp] at h
      exact Or.inl (congrArg _ (Except.error.inj h))
    · rcases ha : newApp (s.appOf install) install package config.options with e' | app
      · simp only [bind, Except.bind, hp, ha] at h
        exact Or.inr ⟨package, ha.trans (congrArg _ (Except.error.inj h))⟩
      · simp only [bind, Except.bind, hp, ha] at h
        cases h

/-- Nothing that goes wrong before is a conflict. -/
theorem wanted_not_conflict {e : Error} (h : s.wanted config id = .error e) :
    e.isConflict = false := by
  rcases wanted_error_cases h with h | ⟨install, _, h | ⟨package, h⟩⟩
  · unfold installAt at h
    split at h
    · rename_i hget
      exact Except.error.inj h ▸ get_not_conflict hget
    · cases h
    · cases h
      rfl
  · exact resolvePackage_not_conflict h
  · exact newApp_not_conflict h

/-- No App is under the identity of an install. -/
theorem Sound.app_apart (hs : s.Sound) {install : PackageInstall}
    (h : s.installAt id = .ok install) {other : ResourceId} (hother : other.kind = Kind.app.name) :
    other.same id = false := by
  rw [Bool.eq_false_iff]
  intro hsame
  have hkind : Kind.app.name = Kind.packageInstall.name :=
    hother.symm.trans <| (ResourceId.same_iff.mp hsame).1.trans
      (hs.kind_of_find? (installAt_eq_ok.mp h).2).symm
  exact absurd (Kind.name_inj.mp hkind) (by decide)

/-- The App of an install that is there can be looked up. -/
theorem Sound.appId_isAtomic (hs : s.Sound) {install : PackageInstall}
    (h : s.installAt id = .ok install) : install.appId.isAtomic = true := by
  obtain ⟨hid, hfind⟩ := installAt_eq_ok.mp h
  exact (hs.same_of_find? hid hfind).1

/-- Whoever asks for the App of an install is given what is there. -/
theorem Sound.get_appId (hs : s.Sound) {install : PackageInstall}
    (h : install.appId.isAtomic = true) :
    s.get install.appId .app = .ok (s.find? install.appId) := by
  unfold get
  simp only [h, Bool.not_true, Bool.false_eq_true, if_false]
  rcases hfind : s.find? install.appId with _ | obj
  · rfl
  · obtain ⟨x, rfl⟩ := hs.app_of_find? rfl hfind
    rfl

end Store

/-! ## What is done -/

/-- The App and the live store when an App is to be there: it is there already, or it is
written under the next version and listeners are told. -/
def LiveStore.put (call : Call) (x : App) (w : LiveStore) : App × LiveStore :=
  if w.store.holds (.app x) then (x, w)
  else
    (x.withVersion (.str (Numeral.ofNat (w.store.revision + 1))),
      notify call .added (Resource.app x).id (w.store.stamped (.app x))
        { w with store := w.store.write (.app x) })

section Reconciliation

variable {call : Call} {config : ControllerConfig} {w : LiveStore} {written : List App}

theorem readInstall_alone (id : ResourceId) :
    (readInstall id).runWith call w = (w.store.installAt id, w) := by
  unfold readInstall Store.installAt
  rw [Script.runWith]
  rcases w.store.get id .packageInstall with e | (_ | (x | x | x)) <;> rfl

theorem readPackage_alone (install : PackageInstall) :
    (readPackage config install).runWith call w =
      (resolvePackage w.store.packages install config.globalNamespace, w) := by
  unfold readPackage
  simp only [Script.runWith, Store.filterMap_list_package, Script.runWith_ofExcept]

/-- **An attempt never conflicts** when nobody comes in between. -/
theorem attemptWrite_alone (hs : w.store.Sound) (hhistory : w.store.History written)
    {install : PackageInstall} (hid : install.appId.isAtomic = true) (package : Package)
    (onConflict : Error → Script App) :
    (attemptWrite config install package onConflict).runWith call w =
      match newApp (w.store.appOf install) install package config.options with
      | .error e => (.error e, w)
      | .ok desired => (.ok (w.put call desired).1, (w.put call desired).2) := by
  have hget := hs.get_appId hid
  unfold attemptWrite
  simp only [Script.runWith, hget]
  rcases hmade : newApp (w.store.appOf install) install package config.options with e | desired
  · rw [show newApp ((w.store.find? install.appId).bind Resource.app?) install package
      config.options = .error e from hmade]
    rfl
  · rw [show newApp ((w.store.find? install.appId).bind Resource.app?) install package
      config.options = .ok desired from hmade]
    have hnone : w.store.objection? (.app desired) = none := by
      rcases objection?_newApp hs hhistory (hhistory.continues hs) hget hmade with
        ⟨hnone, _⟩ | ⟨hne, _⟩
      · exact hnone
      · exact absurd rfl hne
    simp only [Script.runWith]
    unfold LiveStore.put LiveStore.add
    rcases Store.add_cases hs.refusals (.app desired) with
      ⟨e, ho, _⟩ | ⟨_, hholds, hadd⟩ | ⟨_, hholds, hadd⟩
    · rw [hnone] at ho
      cases ho
    · rw [hadd, if_pos hholds]
      rfl
    · rw [hadd, if_neg (Bool.eq_false_iff.mp hholds)]
      rfl

/-- **A reconciliation fails without effect, or puts the App that is wanted.** -/
theorem reconcile_alone (hs : w.store.Sound) (hhistory : w.store.History written)
    (config : ControllerConfig) (id : ResourceId) :
    (reconcile config id).runWith call w =
      match w.store.wanted config id with
      | .error e => (.error e, w)
      | .ok r => (.ok (w.put call r.app).1,
          (w.put call r.app).2.logged .info (reconciledText id r.package)) := by
  have hrun : (reconcile config id).runWith call w =
      ((readInstall id).bind fun install =>
        (readPackage config install).bind fun package =>
          (writeApp config install package config.maxConflictRetries.toNat).bind fun app =>
            .log .info (reconciledText id package) (.done app)).runWith call w := rfl
  rw [hrun, Script.runWith_bind, readInstall_alone]
  unfold Store.wanted
  rcases hinstall : w.store.installAt id with e | install
  · rfl
  · dsimp only [bind, Except.bind]
    rw [Script.runWith_bind, readPackage_alone]
    rcases resolvePackage w.store.packages install config.globalNamespace with e | package
    · rfl
    · -- Only the first of the attempts is made, so it does not matter how many there are.
      have hattempt : ∃ onConflict,
          writeApp config install package config.maxConflictRetries.toNat =
            attemptWrite config install package onConflict := by
        cases config.maxConflictRetries.toNat with
        | zero => exact ⟨_, rfl⟩
        | succ retries => exact ⟨_, rfl⟩
      obtain ⟨onConflict, hattempt⟩ := hattempt
      dsimp only
      rw [Script.runWith_bind, hattempt,
        attemptWrite_alone hs hhistory (hs.appId_isAtomic hinstall) package onConflict]
      rcases newApp (w.store.appOf install) install package config.options with e | desired
      · rfl
      · rfl

end Reconciliation

end AppSynthesis
