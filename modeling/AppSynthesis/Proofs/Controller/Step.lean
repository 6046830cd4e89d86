/-
AppSynthesis.Proofs.Controller.Step — a reconciliation as a step of the store.

* `Store.put`, `Store.reconciled` — the store after an App is to be there, and after the install
  under an identity was reconciled; `Store.verdict`, what a listener makes of how that ended.
* `Store.reconciled_cases` — such a step writes the App that is wanted, or nothing.
* `tryReconcile_step` — to this a listener's reconciliation comes down, up to registrations.
* `Store.Sound.find?_reconciled` — it touches nothing but the App of the install.
* `Store.Sound.wanted_reconciled` — so what is wanted for other installs stays as it is.

The listeners other than the controller write nothing (`Behaviour.Watches`), and a store is
looked at here without its registrations. What goes on in between is then of no account.
-/
import AppSynthesis.Proofs.Controller.Effect
import AppSynthesis.Proofs.Controller.Settled

namespace AppSynthesis

open Store (Change)

namespace Store

/-! ## Steps -/

/-- The store after an App is to be there. -/
def put (s : Store) (x : App) : Store := if s.holds (.app x) then s else s.write (.app x)

/-- The store after the install under an identity was reconciled. -/
def reconciled (s : Store) (config : ControllerConfig) (id : ResourceId) : Store :=
  match s.wanted config id with
  | .error _ => s
  | .ok r => s.put r.app

/-- What a listener makes of it: errors that operators are told about do not end a call. -/
def verdict (s : Store) (config : ControllerConfig) (id : ResourceId) : Except Error Unit :=
  match s.wanted config id with
  | .error e => if e.isReported then .ok () else .error e
  | .ok _ => .ok ()

variable {s t : Store} {own : ListenerId}

/-- A step writes the App that is wanted, or leaves the store as it is. -/
theorem reconciled_cases (s : Store) (config : ControllerConfig) (id : ResourceId) :
    s.reconciled config id = s ∨
      ∃ r, s.wanted config id = .ok r ∧ s.reconciled config id = s.write (.app r.app) := by
  unfold reconciled put
  split
  · exact Or.inl rfl
  · rename_i r hwanted
    split
    · exact Or.inl rfl
    · exact Or.inr ⟨r, hwanted, rfl⟩

theorem Relistened.find? (h : s.Relistened own t) (id : ResourceId) : t.find? id = s.find? id := by
  obtain ⟨registrations, rfl, _⟩ := h
  rfl

theorem Relistened.packages (h : s.Relistened own t) : t.packages = s.packages := by
  obtain ⟨registrations, rfl, _⟩ := h
  rfl

theorem Relistened.installs (h : s.Relistened own t) : t.installs = s.installs := by
  obtain ⟨registrations, rfl, _⟩ := h
  rfl

end Store

section Steps

variable {behaviour : Behaviour} {own : ListenerId} {config : ControllerConfig} {w : LiveStore}

/-- To put an App among listeners comes down to putting it. -/
theorem put_relistened (hb : behaviour.Watches own config) (depth : Nat) (x : App) :
    (w.store.put x).Relistened own (w.put (deliver behaviour depth) x).2.store := by
  unfold Store.put LiveStore.put
  split
  · exact .refl own w.store
  · exact notify_quiet hb depth .added (Resource.app x).id
      (x.withVersion (.str (Numeral.ofNat (w.store.revision + 1))))
      { w with store := w.store.write (.app x) }

/-- **A listener's reconciliation is a step of the store**, up to registrations. -/
theorem tryReconcile_step (hb : behaviour.Watches own config) (depth : Nat)
    (hw : w.store.Continues []) (id : ResourceId) :
    ∃ w', (tryReconcile config id).runWith (deliver behaviour depth) w =
        (w.store.verdict config id, w') ∧
      w'.store.Continues [] ∧ (w.store.reconciled config id).Relistened own w'.store := by
  have hcontinues := (tryReconcile config id).runWith_keeps_any (P := Store.Continues [])
    (fun c _ hs => hs.apply c) behaviour depth hw
  obtain ⟨hs, written, hhistory⟩ := hw
  suffices h : ((tryReconcile config id).runWith (deliver behaviour depth) w).1 =
        w.store.verdict config id ∧
      (w.store.reconciled config id).Relistened own
        ((tryReconcile config id).runWith (deliver behaviour depth) w).2.store from
    ⟨_, Prod.ext h.1 rfl, hcontinues, h.2⟩
  unfold tryReconcile Store.verdict Store.reconciled
  rw [Script.runWith_recover, Script.runWith_bind, reconcile_alone hs hhistory]
  rcases w.store.wanted config id with e | r
  · by_cases hreported : e.isReported = true
    · simp only [if_pos hreported]
      exact ⟨rfl, .refl own w.store⟩
    · simp only [if_neg hreported]
      exact ⟨rfl, .refl own w.store⟩
  · exact ⟨rfl, put_relistened hb depth r.app⟩

end Steps

/-! ## What a step leaves alone -/

namespace Store

variable {s : Store} {config : ControllerConfig} {install : PackageInstall}

theorem Sound.packages_reconciled (hs : s.Sound) (id : ResourceId) :
    (s.reconciled config id).packages = s.packages := by
  rcases s.reconciled_cases config id with hsame | ⟨_, _, hwritten⟩
  · rw [hsame]
  · rw [hwritten]
    exact hs.packages_write nofun

/-- **Nothing but the App of the install is touched.** -/
theorem Sound.find?_reconciled (hs : s.Sound) {id : ResourceId}
    (hread : s.installAt id = .ok install) {other : ResourceId} (hother : other.isAtomic = true)
    (hne : install.appId.same other = false) :
    (s.reconciled config id).find? other = s.find? other := by
  rcases s.reconciled_cases config id with hsame | ⟨r, hwanted, hwritten⟩
  · rw [hsame]
  · obtain ⟨happId, hatomic, hsame⟩ := hs.id_wanted hwanted
    obtain rfl : r.install = install := install_of_wanted hwanted hread
    rw [hwritten]
    refine hs.find?_write_other hatomic hother (Bool.eq_false_iff.mpr fun h => ?_)
    have happ := ResourceId.same_trans happId hatomic hother
      (ResourceId.same_symm hatomic happId hsame) h
    rw [hne] at happ
    cases happ

/-- Installs stay as they are. -/
theorem Sound.installAt_reconciled (hs : s.Sound) {id other : ResourceId}
    (hread : s.installAt id = .ok install) {x : PackageInstall}
    (hother : s.installAt other = .ok x) : (s.reconciled config id).installAt other = .ok x := by
  obtain ⟨hatomic, hfind⟩ := installAt_eq_ok.mp hother
  have hapart : install.appId.same other = false := hs.app_apart hother rfl
  exact installAt_eq_ok.mpr ⟨hatomic, (hs.find?_reconciled hread hatomic hapart).trans hfind⟩

/-- What is wanted for another install stays as it is. -/
theorem Sound.wanted_reconciled (hs : s.Sound) {id other : ResourceId}
    (hread : s.installAt id = .ok install) {x : PackageInstall} (hother : s.installAt other = .ok x)
    (hne : install.appId.same x.appId = false) :
    (s.reconciled config id).wanted config other = s.wanted config other := by
  have hread' : (s.reconciled config id).installAt other = .ok x :=
    hs.installAt_reconciled hread hother
  have hfind : (s.reconciled config id).find? x.appId = s.find? x.appId :=
    hs.find?_reconciled hread (hs.appId_isAtomic hother) hne
  unfold wanted appOf
  rw [hother, hread', hs.packages_reconciled]
  simp only [bind, Except.bind, hfind]

end Store

end AppSynthesis
