/-
AppSynthesis.Proofs.Controller.Reconcile — reconciling an install while others
use the store.

* `Attempt.Refused` — a write that conflicted and left the store as it was.
* `Attempt.Wrote` — a write of the App that the synthesis makes from what was
  stored right before.
* `attemptWrite_amid` — what one attempt comes to under interference.
* `Written`, `writeApp_amid` — what all attempts come to, by induction on the
  retries that are left.
* `reconcile_amid` — the same for the whole of a reconciliation.

Before each attempt the App is read again. Others may come in between that and
the write, but then the versions differ (`objection?_newApp`), so a write that
succeeds is of an App made from what is there.
-/
import AppSynthesis.Proofs.Controller.Attempt
import AppSynthesis.Proofs.Store.Interference

namespace AppSynthesis

/-! ## Attempts -/

/-- The write conflicted and left the store as it was. -/
structure Attempt.Refused (a : Attempt) : Prop where
  answer : ∃ e, a.answer = .error e ∧ e.isConflict = true
  unchanged : a.after = a.before

/-- The write was of the App that the synthesis makes from the one stored right
before; `app` is what the writer got back. -/
structure Attempt.Wrote (a : Attempt) (install : PackageInstall) (package : Package)
    (options : Options) (read : Option App) (desired app : App) : Prop where
  stored : a.before.store.find? install.appId = read.map .app
  made : newApp read install package options = .ok desired
  /-- What others wrote up to that moment is kept. -/
  kept : (read.getD {}).Kept desired install options.scheme
  obj : a.obj = .app desired
  /-- The App was stored under a new version, or was stored already. -/
  answer : (∃ version, app = desired.withVersion version ∧ a.answer = .ok (.stored (.app app))) ∨
    (app = desired ∧ a.answer = .ok .unchanged)

section Attempts

variable {i : Interference} {behaviour : Behaviour} {config : ControllerConfig}
  {install : PackageInstall} {package : Package}

/-- A write under interference conflicts without effect, or is of what was made
from the stored App. -/
theorem write_newApp (i : Interference) (behaviour : Behaviour) (n : Nat) {s : Store}
    {written : List App} {w : LiveStore} (hs : s.Sound) (hhistory : s.History written)
    (hw : w.store.Continues written)
    {answer : Option Resource} (hget : s.get install.appId .app = .ok answer) {desired : App}
    (hmade : newApp (answer.bind Resource.app?) install package config.options = .ok desired) :
    (∃ e, e.isConflict = true ∧ i.write behaviour n (.app desired) w = (.error e, w)) ∨
    ∃ receipt w', i.write behaviour n (.app desired) w = (.ok receipt, w') ∧
      (Attempt.mk w (.app desired) (.ok receipt) w').Wrote install package config.options
        (answer.bind Resource.app?) desired
        (((receipt.object (.app desired)).app?).getD desired) := by
  unfold Interference.write
  rcases hrefusal : i.refusal n with _ | e
  · dsimp only
    rcases LiveStore.add_answer (deliver behaviour nestingLimit) (.app desired) hw.1.refusals with
      ⟨e, ho, hadd⟩ | ⟨ho, receipt, hadd, hreceipt⟩
    · rcases objection?_newApp hs hhistory hw hget hmade with
        ⟨hnone, _⟩ | ⟨_, e', he', hconflict⟩
      · rw [ho] at hnone
        cases hnone
      · obtain rfl := Option.some.inj (ho.symm.trans he')
        exact Or.inl ⟨e, hconflict, hadd⟩
    · rcases objection?_newApp hs hhistory hw hget hmade with ⟨_, hfind⟩ | ⟨_, e', he', _⟩
      · refine Or.inr ⟨receipt, _, Prod.ext hadd rfl, ?_⟩
        refine ⟨hfind.trans (Store.get_app hget), hmade, newApp_kept hmade, rfl, ?_⟩
        rcases hreceipt with rfl | rfl
        · exact Or.inr ⟨rfl, rfl⟩
        · exact Or.inl ⟨_, rfl, rfl⟩
      · rw [ho] at he'
        cases he'
  · exact Or.inl ⟨e, i.refusal_isConflict n e hrefusal, rfl⟩

/-- One attempt ends before the write over an error that is no conflict, or writes
the App made from what is stored, or conflicts without effect. -/
theorem attemptWrite_amid {written : List App} {w : LiveStore}
    (hw : w.store.Continues written) (onConflict : Error → Script App) (n : Nat) :
    (∃ e, e.isConflict = false ∧
      (attemptWrite config install package onConflict).amid i behaviour n w =
        ⟨.error e, i.alone behaviour n 1 w, [], 1⟩) ∨
    (∃ read desired app a,
      a.Wrote install package config.options read desired app ∧
      (attemptWrite config install package onConflict).amid i behaviour n w =
        ⟨.ok app, a.after, [a], 2⟩) ∨
    ∃ e a, e.isConflict = true ∧ a.Refused ∧
      (attemptWrite config install package onConflict).amid i behaviour n w =
        (((onConflict e).amid i behaviour (n + 2) (i.alone behaviour n 2 w)).attempted
          a).counted := by
  have hread := i.before_continues behaviour hw n
  unfold attemptWrite
  simp only [Script.amid]
  rcases hget : (i.before behaviour n w).store.get install.appId .app with e | answer
  · exact Or.inl ⟨e, Store.get_not_conflict hget, rfl⟩
  rcases hmade : newApp (answer.bind Resource.app?) install package config.options with
    e | desired
  · refine Or.inl ⟨e, newApp_not_conflict hmade, ?_⟩
    simp only [hmade]
    rfl
  obtain ⟨hsound, more, hmore⟩ := hread
  have hlater : (i.before behaviour (n + 1) (i.before behaviour n w)).store.Continues
      (written ++ more) :=
    i.before_continues behaviour (hmore.continues hsound) (n + 1)
  simp only [hmade, Script.amid]
  rcases write_newApp i behaviour (n + 1) hsound hmore hlater hget hmade with
    ⟨e, hconflict, hwrite⟩ | ⟨receipt, w', hwrite, hwrote⟩
  · refine Or.inr (Or.inr ⟨e, ⟨i.alone behaviour n 2 w, .app desired, .error e,
      i.alone behaviour n 2 w⟩, hconflict, ⟨⟨e, rfl, hconflict⟩, rfl⟩, ?_⟩)
    rw [hwrite]
    simp only [hconflict, if_true]
    rfl
  · refine Or.inr (Or.inl ⟨_, desired, _, _, hwrote, ?_⟩)
    rw [hwrite]
    rfl

/-! ## All attempts -/

/-- What the attempts come to when a conflict is followed by `retries` others, in
a run from request `n` on. -/
structure Written (i : Interference) (behaviour : Behaviour) (config : ControllerConfig)
    (install : PackageInstall) (package : Package) (retries n : Nat) (w : LiveStore)
    (out : Outcome App) : Prop where
  bounded : out.attempts.length ≤ retries + 1
  /-- The last attempt wrote what is returned; those before it conflicted. -/
  returned : ∀ app, out.result = .ok app → ∃ read desired earlier last,
    out.attempts = earlier ++ [last] ∧ (∀ a ∈ earlier, a.Refused) ∧
      last.Wrote install package config.options read desired app
  /-- After an error the store is what the others made of it. -/
  raised : ∀ e, out.result = .error e →
    (∀ a ∈ out.attempts, a.Refused) ∧ out.live = i.alone behaviour n out.requests w
  conflict : ∀ e, out.result = .error e → e.isConflict = true →
    out.attempts.length = retries + 1

theorem Written.of_error {retries n : Nat} {w : LiveStore} {e : Error}
    (he : e.isConflict = false) :
    Written i behaviour config install package retries n w
      ⟨.error e, i.alone behaviour n 1 w, [], 1⟩ where
  bounded := Nat.zero_le _
  returned := by
    intro app happ
    cases happ
  raised := fun e' _ => ⟨by simp, rfl⟩
  conflict := by
    intro e' he' hconflict
    obtain rfl := Except.error.inj he'
    rw [he] at hconflict
    cases hconflict

theorem Written.of_wrote {retries n : Nat} {w : LiveStore} {read : Option App}
    {desired app : App} {a : Attempt}
    (ha : a.Wrote install package config.options read desired app) :
    Written i behaviour config install package retries n w ⟨.ok app, a.after, [a], 2⟩ where
  bounded := by simp
  returned := by
    intro app' happ
    obtain rfl := Except.ok.inj happ
    exact ⟨read, desired, [], a, rfl, by simp, ha⟩
  raised := by
    intro e he
    cases he
  conflict := by
    intro e he
    cases he

theorem Written.of_refused {n : Nat} {w : LiveStore} {e : Error} {a : Attempt} (ha : a.Refused) :
    Written i behaviour config install package 0 n w
      ⟨.error e, i.alone behaviour n 2 w, [a], 2⟩ where
  bounded := Nat.le_refl 1
  returned := by
    intro app happ
    cases happ
  raised := fun e' _ => ⟨fun b hb => List.mem_singleton.mp hb ▸ ha, rfl⟩
  conflict := fun _ _ _ => rfl

/-- A conflict before the attempts that are left. -/
theorem Written.retried {retries n : Nat} {w : LiveStore} {out : Outcome App} {a : Attempt}
    (ha : a.Refused)
    (h : Written i behaviour config install package retries (n + 2) (i.alone behaviour n 2 w) out) :
    Written i behaviour config install package (retries + 1) n w (out.attempted a).counted where
  bounded := Nat.succ_le_succ h.bounded
  returned := by
    intro app happ
    obtain ⟨read, desired, earlier, last, hattempts, hearlier, hlast⟩ := h.returned app happ
    refine ⟨read, desired, a :: earlier, last, ?_, ?_, hlast⟩
    · exact congrArg (a :: ·) hattempts
    · intro b hb
      rcases List.mem_cons.mp hb with rfl | hb
      · exact ha
      · exact hearlier b hb
  raised := by
    intro e he
    obtain ⟨hall, hlive⟩ := h.raised e he
    refine ⟨fun b hb => ?_, ?_⟩
    · rcases List.mem_cons.mp hb with rfl | hb
      · exact ha
      · exact hall b hb
    · have hsum : (out.attempted a).counted.requests = 2 + out.requests := by
        show out.requests + 1 + 1 = 2 + out.requests
        omega
      rw [hsum, i.alone_add behaviour 2 out.requests n w]
      exact hlive
  conflict := fun e he hconflict => congrArg (· + 1) (h.conflict e he hconflict)

/-- **All attempts**: there are at most as many as retries and one more. -/
theorem writeApp_amid (i : Interference) (behaviour : Behaviour) (config : ControllerConfig)
    (install : PackageInstall) (package : Package) :
    ∀ (retries n : Nat) {written : List App} {w : LiveStore}, w.store.Continues written →
      Written i behaviour config install package retries n w
        ((writeApp config install package retries).amid i behaviour n w)
  | 0, n, _, w, hw => by
    rw [writeApp]
    rcases attemptWrite_amid (i := i) hw .fail n with
      ⟨e, he, hout⟩ | ⟨read, desired, app, a, ha, hout⟩ | ⟨e, a, he, ha, hout⟩
    · rw [hout]
      exact .of_error he
    · rw [hout]
      exact .of_wrote ha
    · rw [hout]
      exact .of_refused ha
  | retries + 1, n, _, w, hw => by
    rw [writeApp]
    rcases attemptWrite_amid (i := i) hw (fun _ => writeApp config install package retries) n with
      ⟨e, he, hout⟩ | ⟨read, desired, app, a, ha, hout⟩ | ⟨e, a, he, ha, hout⟩
    · rw [hout]
      exact .of_error he
    · rw [hout]
      exact .of_wrote ha
    · rw [hout]
      exact .retried ha (writeApp_amid i behaviour config install package retries (n + 2)
        (i.before_continues behaviour (i.before_continues behaviour hw n) (n + 1)))

end Attempts

/-! ## A whole reconciliation -/

/-- The first request of a reconciliation. -/
theorem readInstall_amid (i : Interference) (behaviour : Behaviour) (id : ResourceId) (n : Nat)
    (w : LiveStore) :
    (∃ e, e.isConflict = false ∧
      (readInstall id).amid i behaviour n w = ⟨.error e, i.alone behaviour n 1 w, [], 1⟩) ∨
    ∃ install, (i.alone behaviour n 1 w).store.find? id = some (.packageInstall install) ∧
      (readInstall id).amid i behaviour n w = ⟨.ok install, i.alone behaviour n 1 w, [], 1⟩ := by
  unfold readInstall
  simp only [Script.amid]
  rcases hget : (i.before behaviour n w).store.get id .packageInstall with e | answer
  · exact Or.inl ⟨e, Store.get_not_conflict hget, rfl⟩
  · rcases answer with _ | (x | install | x)
    · exact Or.inl ⟨.noInstall id, rfl, rfl⟩
    · exact Or.inl ⟨.noInstall id, rfl, rfl⟩
    · exact Or.inr ⟨install, (Store.get_eq_ok hget).2.1, rfl⟩
    · exact Or.inl ⟨.noInstall id, rfl, rfl⟩

theorem readPackage_amid (i : Interference) (behaviour : Behaviour) (config : ControllerConfig)
    (install : PackageInstall) (n : Nat) (w : LiveStore) :
    (readPackage config install).amid i behaviour n w =
      ⟨resolvePackage (i.alone behaviour n 1 w).store.packages install config.globalNamespace,
        i.alone behaviour n 1 w, [], 1⟩ := by
  unfold readPackage
  simp only [Script.amid, Store.filterMap_list_package]
  show ((Script.ofExcept (resolvePackage (i.alone behaviour n 1 w).store.packages install
    config.globalNamespace)).amid i behaviour (n + 1) (i.alone behaviour n 1 w)).counted = _
  rcases resolvePackage (i.alone behaviour n 1 w).store.packages install
    config.globalNamespace with e | package
  · rfl
  · rfl

/-- What a reconciliation comes to under interference. -/
structure Reconciled (i : Interference) (behaviour : Behaviour) (config : ControllerConfig)
    (id : ResourceId) (w : LiveStore) (out : Outcome App) : Prop where
  /-- There is at most one write attempt more than may be retried. -/
  bounded : (out.attempts.length : Int) ≤ max config.maxConflictRetries 0 + 1
  /-- The last attempt wrote what is returned: the App made, for the install and
  the package that were read first, from the App stored right before. All
  attempts before it conflicted. -/
  returned : ∀ app, out.result = .ok app →
    ∃ install package read desired earlier last,
      (i.alone behaviour 0 1 w).store.find? id = some (.packageInstall install) ∧
      resolvePackage (i.alone behaviour 0 2 w).store.packages install config.globalNamespace =
        .ok package ∧
      out.attempts = earlier ++ [last] ∧ (∀ a ∈ earlier, a.Refused) ∧
      last.Wrote install package config.options read desired app
  /-- After an error all attempts conflicted, and the live store is what the
  others alone made of it. -/
  raised : ∀ e, out.result = .error e →
    (∀ a ∈ out.attempts, a.Refused) ∧ out.live = i.alone behaviour 0 out.requests w
  /-- A conflict is only passed on when nothing is left to be retried. -/
  conflict : ∀ e, out.result = .error e → e.isConflict = true →
    (out.attempts.length : Int) = max config.maxConflictRetries 0 + 1

section Reconciliation

variable {i : Interference} {behaviour : Behaviour} {config : ControllerConfig}
  {id : ResourceId} {w : LiveStore}

theorem Reconciled.of_error {e : Error} (he : e.isConflict = false) (k : Nat) :
    Reconciled i behaviour config id w ⟨.error e, i.alone behaviour 0 k w, [], k⟩ where
  bounded := by
    have hmax : 0 ≤ max config.maxConflictRetries 0 := Int.le_max_right _ _
    simp only [List.length_nil, Int.natCast_zero]
    omega
  returned := by
    intro app happ
    cases happ
  raised := fun _ _ => ⟨by simp, rfl⟩
  conflict := by
    intro e' he' hconflict
    obtain rfl := Except.error.inj he'
    rw [he] at hconflict
    cases hconflict

/-- The attempts follow after the two requests that read install and package. -/
theorem Reconciled.of_written {install : PackageInstall} {package : Package}
    (hinstall : (i.alone behaviour 0 1 w).store.find? id = some (.packageInstall install))
    (hpackage : resolvePackage (i.alone behaviour 0 2 w).store.packages install
      config.globalNamespace = .ok package) {out out' : Outcome App}
    (h : Written i behaviour config install package config.maxConflictRetries.toNat 2
      (i.alone behaviour 0 2 w) out)
    (hresult : out'.result = out.result) (hattempts : out'.attempts = out.attempts)
    (hrequests : out'.requests = 2 + out.requests)
    (hlive : ∀ e, out.result = .error e → out'.live = out.live) :
    Reconciled i behaviour config id w out' := by
  have hretries : (config.maxConflictRetries.toNat : Int) = max config.maxConflictRetries 0 :=
    Int.toNat_eq_max _
  refine ⟨?_, fun app happ => ?_, fun e he => ?_, fun e he hconflict => ?_⟩
  · have hbounded := h.bounded
    rw [hattempts]
    omega
  · obtain ⟨read, desired, earlier, last, hearlier⟩ := h.returned app (hresult ▸ happ)
    exact ⟨install, package, read, desired, earlier, last, hinstall, hpackage,
      hattempts ▸ hearlier⟩
  · obtain ⟨hall, hothers⟩ := h.raised e (hresult ▸ he)
    rw [hattempts, hlive e (hresult ▸ he), hothers, hrequests, i.alone_add behaviour 2]
    exact ⟨hall, rfl⟩
  · have hall := h.conflict e (hresult ▸ he) hconflict
    rw [hattempts]
    omega

/-- **Reconciling while others use the store**, whatever they do between the
requests, and whatever writes the store refuses over conflicts. -/
theorem reconcile_amid (i : Interference) (behaviour : Behaviour) {w : LiveStore}
    (hw : w.store.Reached Store.Change.any) (config : ControllerConfig) (id : ResourceId) :
    Reconciled i behaviour config id w ((reconcile config id).amid i behaviour 0 w) := by
  obtain ⟨written, hwritten⟩ := hw.history
  have hstart := hwritten.continues hw.sound
  have hreconcile : (reconcile config id).amid i behaviour 0 w =
      ((readInstall id).bind fun install => (readPackage config install).bind fun package =>
        (writeApp config install package config.maxConflictRetries.toNat).bind fun app =>
          .log .info (reconciledText id package) (.done app)).amid i behaviour 0 w := rfl
  rw [hreconcile, Script.amid_bind]
  rcases readInstall_amid i behaviour id 0 w with ⟨e, he, hread⟩ | ⟨install, hfind, hread⟩
  · rw [hread]
    exact .of_error he 1
  · have hpackages : (readPackage config install).amid i behaviour 1 (i.alone behaviour 0 1 w) =
        ⟨resolvePackage (i.alone behaviour 0 2 w).store.packages install config.globalNamespace,
          i.alone behaviour 0 2 w, [], 1⟩ :=
      readPackage_amid i behaviour config install 1 _
    rw [hread, Outcome.andThen_of_ok rfl]
    simp only [Nat.zero_add]
    rw [Script.amid_bind, hpackages]
    rcases hpackage : resolvePackage (i.alone behaviour 0 2 w).store.packages install
      config.globalNamespace with e | package
    · exact .of_error (resolvePackage_not_conflict hpackage) 2
    · have hwrite := writeApp_amid i behaviour config install package
        config.maxConflictRetries.toNat 2
        (i.before_continues behaviour (i.before_continues behaviour hstart 0) 1)
      rw [Outcome.andThen_of_ok rfl, Script.amid_bind]
      -- What is logged in the end adds neither requests nor attempts.
      obtain ⟨hresult, hattempts, hrequests, hlive⟩ := Outcome.andThen_result
        ((writeApp config install package config.maxConflictRetries.toNat).amid i behaviour 2
          (i.alone behaviour 0 2 w))
        fun _ w' => w'.logged .info (reconciledText id package)
      exact .of_written hfind hpackage hwrite hresult hattempts
        ((Nat.add_assoc 1 1 _).symm.trans (congrArg (2 + ·) hrequests)) hlive

/-- The App is created with a label right before the first write, and the second
write is refused. The third attempt writes, and the label is kept. -/
theorem reconcile_amid_labelled :
    ∃ (i : Interference) (w : LiveStore) (id : ResourceId),
      w.store.Reached Store.Change.any ∧
      Reconciled i (fun _ _ _ => .done ()) {} id w
        ((reconcile {} id).amid i (fun _ _ _ => .done ()) 0 w) ∧
      ((reconcile {} id).amid i (fun _ _ _ => .done ()) 0 w).attempts.length = 3 ∧
      (((reconcile {} id).amid i (fun _ _ _ => .done ()) 0 w).live.store.find?
        ⟨"App", id.ns, id.name⟩).map (fun obj => (obj.app?.getD {}).labels) =
          some (.map none [(.str "team", .str "a")]) := by
  let package : Package :=
    { name := .str "p", ns := .str "apps", refName := .str "p.example.com", version := "1.0.0" }
  let install : PackageInstall :=
    { name := .str "web", ns := .str "apps"
      spec := { packageRef := some { refName := "p.example.com" } } }
  let labelled : App :=
    { name := .str "web", ns := .str "apps", labels := .map none [(.str "team", .str "a")] }
  let start : Store :=
    (Store.Change.add (.package package)).apply
      ((Store.Change.add (.packageInstall install)).apply {})
  let i : Interference :=
    { others := fun n => if n = 3 then .add (.app labelled) fun _ => .done () else .done ()
      refusal := fun n =>
        if n = 5 then some (.conflict "App/apps/web" (.str "1") (.str "other")) else none
      refusal_isConflict := by
        intro n e he
        split at he
        · cases he
          rfl
        · cases he }
  have hreached : start.Reached Store.Change.any :=
    .change _ trivial (.change _ trivial .empty)
  exact ⟨i, { store := start }, (Resource.packageInstall install).id, hreached,
    reconcile_amid i _ hreached {} _, by decide +kernel, by decide +kernel⟩

end Reconciliation

end AppSynthesis
