/-
AppSynthesis.Proofs.Controller.Replacement — a package that takes the place of another.

* `add_package_settled` — after a package was added to a store that a controller keeps up, the
  App of every install whose package and App can be told is the one that it asks for, unless the
  install asks for the package that was replaced and not for the one in its place.
* `add_package_orphaned` — the exception is real. Such an install may well have come to mean a
  package, when the one that was replaced is no longer in the way of another version.

The listener is shown the new package only and reconciles those who ask for it
(`add_package_settles`). A package that keeps its name leaves nobody behind, and a controller
keeps up (`Controlled.converged`).
-/
import AppSynthesis.Proofs.Controller.Convergence
import AppSynthesis.Proofs.Schema.Fields

namespace AppSynthesis

variable {behaviour : Behaviour} {own : ListenerId} {config : ControllerConfig} {w : LiveStore}

/-- **A package reaches those who ask for it, and those who did not ask for the one in whose
place it comes.** -/
theorem add_package_settled (hb : behaviour.Watches own config)
    (hw : w.store.Converged config own) {x : Package} (hx : (Resource.package x).WellFormed)
    {v : LiveStore} (hv : ((Script.add (.package x) .ofExcept).run behaviour w).2 = v)
    {install : PackageInstall} (hinstall : install ∈ v.store.installs) {package : Package}
    (hpackage : resolvePackage v.store.packages install config.globalNamespace = .ok package)
    {desired : App}
    (hmade : newApp (v.store.appOf install) install package config.options = .ok desired) :
    (∃ a, v.store.find? install.appId = some (.app a) ∧
      (a = desired ∨ App.schema.same a desired = true)) ∨
    (install.asksFor x = false ∧
      ∃ old, w.store.find? (Resource.package x).id = some (.package old) ∧
        install.asksFor old = true) := by
  subst hv
  by_cases hasks : install.asksFor x = true ∨
      ∀ old, w.store.find? (Resource.package x).id = some (.package old) →
        install.asksFor old = false
  · exact Or.inl (add_package_settles hb hw hx hinstall hasks package desired hpackage hmade)
  · obtain ⟨hx, hold⟩ := not_or.mp hasks
    obtain ⟨old, hold⟩ := Classical.not_forall.mp hold
    obtain ⟨hfind, hasksOld⟩ := Classical.not_imp.mp hold
    exact Or.inr ⟨Bool.eq_false_iff.mpr hx, old, hfind, Bool.not_eq_false _ ▸ hasksOld⟩

namespace Replacement

/-- An install that asks for some version of a package. -/
def install (refName : String) : PackageInstall where
  name := .str "web"
  ns := .str "apps"
  spec := { packageRef := some { refName } }

/-- A package under a name of its own that offers a version of `refName`. -/
def package (name refName version : String) : Package where
  name := .str name
  ns := .str "apps"
  refName := .str refName
  version

/-- A store with two versions of the package `p`, an install, and a controller. -/
def before (refName : String) : Store :=
  (Store.given [.package (package "p1" "p" "1.0.0"), .package (package "p2" "p" "2.0.0"),
    .packageInstall (install refName)]).register .added 0

/-- The store after the first of the packages was replaced by one with another name. -/
def after (refName : String) : Store :=
  ((Script.add (.package (package "p1" "q" "1.0.0")) .ofExcept).run (.controller 0 {})
    { store := before refName }).2.store

theorem before_reached (refName : String) : (before refName).Reached Store.Change.any :=
  .change (.register .added 0) trivial (Store.given_reached _)

/-- An install that means no package is settled. -/
theorem before_converged (refName : String) (h : ∀ p, resolvePackage (before refName).packages
    (install refName) (ControllerConfig.globalNamespace {}) ≠ .ok p) :
    (before refName).Converged {} 0 where
  wellFormed := by
    have hobjects : (before refName).objects.map (·.2) = [.package (package "p1" "p" "1.0.0"),
        .package (package "p2" "p" "2.0.0"), .packageInstall (install refName)] := rfl
    refine .of_reached (before_reached refName) fun e he => ?_
    have hmem : e.2 ∈ (before refName).objects.map (·.2) := List.mem_map_of_mem he
    rw [hobjects] at hmem
    simp only [List.mem_cons, List.not_mem_nil, or_false] at hmem
    rcases hmem with he | he | he <;> exact he ▸ ⟨rfl, rfl, rfl⟩
  listening := List.mem_append_right _ (List.mem_singleton.mpr rfl)
  settled x hx := by
    have hinstalls : (before refName).installs = [install refName] := rfl
    rw [hinstalls, List.mem_singleton] at hx
    subst hx
    exact fun p _ hp => absurd hp (h p)

/-- Two versions are in each other's way. -/
theorem before_ambiguous (p : Package) : resolvePackage (before "p").packages (install "p")
    (ControllerConfig.globalNamespace {}) ≠ .ok p := by
  intro h
  obtain ⟨refName, hrefName, _, _, _, hversions⟩ := resolvePackage_eq_ok.mp h
  obtain rfl : "p" = refName := Option.some.inj hrefName
  rw [versionsOf, sortTexts, List.length_mergeSort] at hversions
  exact absurd hversions (by decide +kernel)

end Replacement

open Replacement

/-- An install that waits for a package of another name is served by the replacement. -/
theorem add_package_settled_renamed :
    ∃ desired a,
      resolvePackage (before "q").packages (install "q") (ControllerConfig.globalNamespace {}) =
        .error (.noPackage "q" "*" "apps/web") ∧
      newApp ((after "q").appOf (install "q")) (install "q") (package "p1" "q" "1.0.0") {} =
        .ok desired ∧
      (after "q").find? (install "q").appId = some (.app a) ∧
      (a = desired ∨ App.schema.same a desired = true) := by
  have hwaits : resolvePackage (before "q").packages (install "q")
      (ControllerConfig.globalNamespace {}) = .error (.noPackage "q" "*" "apps/web") := rfl
  have hconverged : (before "q").Converged {} 0 :=
    before_converged "q" fun p hp => nomatch hwaits.symm.trans hp
  have hpackage : resolvePackage (after "q").packages (install "q")
      (ControllerConfig.globalNamespace {}) = .ok (package "p1" "q" "1.0.0") :=
    toOption_eq_some.mp (by decide +kernel)
  obtain ⟨desired, hmade⟩ : ∃ desired, newApp ((after "q").appOf (install "q")) (install "q")
      (package "p1" "q" "1.0.0") {} = .ok desired := exists_ok_of_isSome (by decide +kernel)
  have hasks : (install "q").asksFor (package "p1" "q" "1.0.0") = true := by decide +kernel
  have hmember : install "q" ∈ (after "q").installs := by decide +kernel
  rcases add_package_settled (Behaviour.controller_watches 0 {}) (w := { store := before "q" })
    hconverged (x := package "p1" "q" "1.0.0") ⟨rfl, rfl, rfl⟩ rfl hmember hpackage hmade with
    ⟨a, ha⟩ | ⟨hnot, _⟩
  · exact ⟨desired, a, hwaits, hmade, ha⟩
  · cases hnot.symm.trans hasks

/-- **An install that asked for the package that was replaced is left without its App.** Two
versions are in each other's way. When one of them becomes a package of another name, the install
means the other one; but the controller is told about the new name only. -/
theorem add_package_orphaned :
    ∃ desired,
      (before "p").Reached Store.Change.any ∧ (before "p").Converged {} 0 ∧
      (before "p").find? (Resource.package (package "p1" "q" "1.0.0")).id =
        some (.package (package "p1" "p" "1.0.0")) ∧
      (∀ p, resolvePackage (before "p").packages (install "p")
        (ControllerConfig.globalNamespace {}) ≠ .ok p) ∧
      install "p" ∈ (after "p").installs ∧
      resolvePackage (after "p").packages (install "p") (ControllerConfig.globalNamespace {}) =
        .ok (package "p2" "p" "2.0.0") ∧
      newApp ((after "p").appOf (install "p")) (install "p") (package "p2" "p" "2.0.0") {} =
        .ok desired ∧
      (after "p").find? (install "p").appId = none := by
  obtain ⟨desired, hmade⟩ : ∃ desired, newApp ((after "p").appOf (install "p")) (install "p")
      (package "p2" "p" "2.0.0") {} = .ok desired := exists_ok_of_isSome (by decide +kernel)
  exact ⟨desired, before_reached "p", before_converged "p" before_ambiguous, by decide +kernel,
    before_ambiguous, by decide +kernel, toOption_eq_some.mp (by decide +kernel), hmade,
    by decide +kernel⟩

end AppSynthesis
