/-
AppSynthesis.Proofs.Controller.Isolation — an install does not get in the way of others.

* `Store.Without` — a store without one of its installs; it is alike, also when a package is
  written to both (`Store.Without.alike`, `Store.Without.write`).
* `add_package_alike` — a package that is added keeps the two alike.
* `add_package_isolated` — when a package is added, the App of every other install is the one
  that it would be without the install.
* `add_package_fault` — unless the reconciliation of the install ends in an error that operators
  are not told about. This ends the call, and the installs after it are not reconciled.
-/
import AppSynthesis.Proofs.Controller.Alike

namespace AppSynthesis

open Store (Change)

/-! ## A store without an install -/

namespace Store

variable {A : PackageInstall} {s t : Store} {config : ControllerConfig}

/-- The second store is the first without the install `A`. -/
structure Without (s : Store) (A : PackageInstall) (t : Store) : Prop where
  objects : t.objects = s.objects.filter fun e => e.2 ≠ .packageInstall A
  registrations : t.registrations = s.registrations

theorem Without.installs (h : s.Without A t) : t.installs = s.installs.filter (· ≠ A) := by
  unfold Store.installs
  rw [h.objects, List.filterMap_map, List.filterMap_map, List.filterMap_filter,
    List.filter_filterMap]
  refine congrArg (s.objects.filterMap ·) (funext fun e => ?_)
  rcases e with ⟨id, x | x | x⟩
  · rfl
  · by_cases hx : x = A
    · simp [Resource.packageInstall?, hx, Option.filter]
    · simp [Resource.packageInstall?, hx, Option.filter]
  · rfl

theorem Without.packages (h : s.Without A t) : t.packages = s.packages := by
  unfold Store.packages
  rw [h.objects, List.filterMap_map, List.filterMap_map, List.filterMap_filter]
  refine congrArg (s.objects.filterMap ·) (funext fun e => ?_)
  rcases e with ⟨id, x | x | x⟩
  · rfl
  · by_cases hx : x = A
    · simp [Resource.package?, hx]
    · simp [Resource.package?, hx]
  · rfl

/-- Under any other identity the same is found. -/
theorem Without.find? (hs : s.Sound) (h : s.Without A t) {id : ResourceId}
    (hid : id.isAtomic = true) (hne : (Resource.packageInstall A).id.same id = false) :
    t.find? id = s.find? id := by
  have hfilter : (s.objects.filter fun e => e.2 ≠ .packageInstall A).filter (·.1.same id) =
      s.objects.filter (·.1.same id) := by
    rw [List.filter_filter]
    refine List.filter_congr fun e he => ?_
    by_cases hsame : e.1.same id = true
    · have hother : e.2 ≠ .packageInstall A := by
        intro hA
        obtain ⟨hkey, hatomic⟩ := hs.atomic e he
        have hkeyed := hs.keyed e he
        rw [hA] at hatomic hkeyed
        have hfound := ResourceId.same_trans hatomic hkey hid
          (ResourceId.same_symm hkey hatomic hkeyed) hsame
        rw [hne] at hfound
        cases hfound
      simp [hsame, hother]
    · simp [hsame]
  unfold Store.find?
  rw [h.objects, ← List.head?_filter, ← List.head?_filter, hfilter]

theorem Without.alike (hs : s.Sound) (h : s.Without A t) : s.Alike A t where
  packages := h.packages
  found _ hid hne _ := congrArg (Option.map Resource.unversioned) (h.find? hs hid hne)

/-- A package is written to both in the same way. -/
theorem Without.write (hs : s.Sound) (h : s.Without A t) (p : Package) :
    (s.write (.package p)).Without A (t.write (.package p)) where
  objects := by
    show place (Resource.package p).id (.package p) t.objects =
      (place (Resource.package p).id (.package p) s.objects).filter _
    rw [h.objects]
    refine place_filter (fun i => by simp) fun e he hsame => ?_
    have hkind : e.2.kind = .package := by
      rw [← Kind.name_inj, ← Resource.id_kind, ← (ResourceId.same_iff.mp (hs.keyed e he)).1,
        (ResourceId.same_iff.mp hsame).1]
      rfl
    have hother : e.2 ≠ .packageInstall A := by
      intro hA
      rw [hA] at hkind
      cases hkind
    simp [hother]
  registrations := h.registrations

/-- What becomes of a package that is added. No write of a package is refused. -/
theorem add_package (s : Store) (p : Package) :
    s.add (.package p) =
      match s.objection? (.package p) with
      | some e => (.error e, s)
      | none =>
        if s.holds (.package p) then (.ok .unchanged, s)
        else (.ok (.stored (.package p)), s.write (.package p)) := rfl

theorem Without.holds (hs : s.Sound) (h : s.Without A t) {p : Package}
    (hp : (Resource.package p).id.isAtomic = true) :
    t.holds (.package p) = s.holds (.package p) := by
  have hkind : (Kind.packageInstall.name == Kind.package.name) = false := by decide
  unfold Store.holds
  rw [h.find? hs hp (by simp only [Resource.id, ResourceId.same, hkind, Bool.false_and])]

theorem Sound.nodup_installs (hs : s.Sound) : s.installs.Nodup := by
  unfold Store.installs List.Nodup
  rw [List.filterMap_map, List.pairwise_filterMap]
  refine (List.pairwise_map.mp hs.distinct).imp_of_mem fun {e f} he hf hapart C hC D hD hCD => ?_
  have hid : ∀ {e : ResourceId × Resource} {x : PackageInstall}, e ∈ s.objects →
      (Resource.packageInstall? ∘ Prod.snd) e = some x → e.1.isAtomic = true ∧
        (Resource.packageInstall x).id.isAtomic = true ∧
        e.1.same (Resource.packageInstall x).id = true := by
    rintro ⟨i, x | x | x⟩ y he hy
    · cases hy
    · obtain rfl := Option.some.inj hy
      exact ⟨(hs.atomic _ he).1, (hs.atomic _ he).2, hs.keyed _ he⟩
    · cases hy
  subst hCD
  obtain ⟨hekey, hatomic, hesame⟩ := hid he hC
  obtain ⟨hfkey, _, hfsame⟩ := hid hf hD
  rw [ResourceId.same_trans hekey hatomic hfkey hesame
    (ResourceId.same_symm hfkey hatomic hfsame)] at hapart
  cases hapart

/-- Installs of a store that are found under the same identity are one and the same. -/
theorem Sound.install_unique (hs : s.Sound) {C : PackageInstall} (hA : A ∈ s.installs)
    (hC : C ∈ s.installs)
    (h : (Resource.packageInstall A).id.same (Resource.packageInstall C).id = true) : A = C := by
  obtain ⟨hatomicA, hfindA⟩ := installAt_eq_ok.mp (hs.installAt_of_mem hA)
  obtain ⟨hatomicC, hfindC⟩ := installAt_eq_ok.mp (hs.installAt_of_mem hC)
  rw [hs.find?_congr hatomicA hatomicC h, hfindC] at hfindA
  exact (Resource.packageInstall.inj (Option.some.inj hfindA)).symm

/-- Any installs of a store are ready, if `A` is no obstacle. -/
theorem Sound.ready (hs : s.Sound) (hA : A ∈ s.installs)
    (hreported : ∀ e, s.wanted config (Resource.packageInstall A).id = .error e →
      e.isReported = true) (keep : PackageInstall → Bool) :
    s.Ready config A (s.installs.filter keep) where
  once := hs.nodup_installs.filter keep
  others C hC hne := by
    have hmem := (List.mem_filter.mp hC).1
    refine ⟨hs.installAt_of_mem hmem, Bool.eq_false_iff.mpr fun hsame => ?_⟩
    exact hne (hs.install_unique hA hmem hsame).symm
  read _ := hs.installAt_of_mem hA
  reported _ := hreported

end Store

/-! ## Adding a package -/

section Runs

variable {behaviour : Behaviour} {own : ListenerId} {config : ControllerConfig}
  {A : PackageInstall}

/-- A package that is added keeps a store and the one without an install alike, unless the
reconciliation of the install ends in an error that operators are not told about. -/
theorem add_package_alike (hb : behaviour.Watches own config) {w v : LiveStore}
    (hw : w.store.Reached Change.any) (hv : v.store.Reached Change.any)
    (hwithout : w.store.Without A v.store) (hone : (w.store.listeners .added).count own ≤ 1)
    (hA : A ∈ w.store.installs) {p : Package}
    (hreported : ∀ e, (w.store.write (.package p)).wanted config (Resource.packageInstall A).id =
      .error e → e.isReported = true) :
    ((Script.add (.package p) .ofExcept).run behaviour w).2.store.Alike A
      ((Script.add (.package p) .ofExcept).run behaviour v).2.store := by
  have hs := hw.sound
  rw [Script.run_add, Script.run_add]
  unfold LiveStore.add
  have hobjection : v.store.objection? (.package p) = w.store.objection? (.package p) := rfl
  rw [Store.add_package, Store.add_package, hobjection]
  rcases hp : w.store.objection? (.package p) with _ | e
  · have hatomic := Store.isAtomic_of_objection? hp
    rw [hwithout.holds hs hatomic]
    by_cases hholds : w.store.holds (.package p) = true
    · rw [hholds]
      exact hwithout.alike hs
    · -- The package is written, and the listeners are told.
      have hwrite := hwithout.write hs p
      have hlisteners : (v.store.write (.package p)).listeners .added =
          (w.store.write (.package p)).listeners .added :=
        congrArg (fun rs => (rs.filter fun r => r.1 = .added).map (·.2)) hwrite.registrations
      have hsound : (w.store.write (.package p)).Sound := hs.write hatomic
      have hcontinues : ∀ {u : LiveStore}, u.store.Reached Change.any →
          (u.store.write (.package p)).Continues [] := by
        intro u hu
        obtain ⟨written, hhistory⟩ := hu.history
        exact ⟨hu.sound.write hatomic, _, hhistory.write (.package p)⟩
      have hinstalls : (w.store.write (.package p)).installs = w.store.installs :=
        hs.installs_write nofun
      have halike := notify_alike hb 999 (Resource.package p).id p
        ((w.store.write (.package p)).listeners .added)
        (w := { w with store := w.store.write (.package p) })
        (v := { v with store := v.store.write (.package p) }) (hcontinues hw) (hcontinues hv)
        (hwrite.alike hsound) hone
        fun _ => ⟨hwrite.installs, hsound.ready (hinstalls ▸ hA) hreported _⟩
      simp only [if_neg hholds]
      unfold notify
      rw [hlisteners]
      exact halike
  · exact hwithout.alike hs

/-- **An install does not get in the way of others.** A package is added to two live stores,
the second of which lacks one of the installs. Unless the reconciliation of that install ends in
an error that operators are not told about, every other install has the same App afterwards, up
to its version. -/
theorem add_package_isolated (hb : behaviour.Watches own config) {w v : LiveStore}
    (hw : w.store.Reached Change.any) (hv : v.store.Reached Change.any)
    (hwithout : w.store.Without A v.store) (hone : (w.store.listeners .added).count own ≤ 1)
    {B : PackageInstall} (hA : A ∈ w.store.installs) (hB : B ∈ w.store.installs) (hne : A ≠ B)
    {p : Package}
    (hreported : ∀ e, (w.store.write (.package p)).wanted config (Resource.packageInstall A).id =
      .error e → e.isReported = true) :
    (((Script.add (.package p) .ofExcept).run behaviour w).2.store.find? B.appId).map
        Resource.unversioned =
      (((Script.add (.package p) .ofExcept).run behaviour v).2.store.find? B.appId).map
        Resource.unversioned := by
  have hs := hw.sound
  have hapart : (Resource.packageInstall A).id.same (Resource.packageInstall B).id = false :=
    Bool.eq_false_iff.mpr fun hsame => hne (hs.install_unique hA hB hsame)
  have halike := add_package_alike hb hw hv hwithout hone hA hreported
  exact (halike.found B.appId (hs.appId_isAtomic (hs.installAt_of_mem hB)) Store.install_same_appId
    (Store.appId_same.trans hapart)).symm

end Runs

/-! ## Errors that are told about and errors that are not -/

namespace Isolation

/-- An install that comes before others and asks for the package `p` too. -/
def first (constraints : Option String) (annotations : Value) : PackageInstall where
  name := .str "a"
  ns := .str "apps"
  annotations
  spec := { packageRef := some { refName := "p", versionSelection := some { constraints } } }

/-- Another install that asks for the package. -/
def second : PackageInstall where
  name := .str "b"
  ns := .str "apps"
  spec := { packageRef := some { refName := "p" } }

def package : Package where
  name := .str "p"
  ns := .str "apps"
  refName := .str "p"
  version := "1.0.0"

/-- A map with texts as keys, as it is read from a document. -/
def mapping (entries : List (String × Value)) : Value :=
  .map (some 1) (entries.map fun e => (.str e.1, e.2))

/-- The document of a resource in the namespace of the two. -/
def document (kind : Kind) (name : String) (metadata spec : List (String × Value)) : Value :=
  mapping [("apiVersion", .str (Api.version (Api.group kind))), ("kind", .str kind.name),
    ("metadata", mapping ([("name", .str name), ("namespace", .str "apps")] ++ metadata)),
    ("spec", mapping spec)]

/-- A store with installs and a controller. -/
def storeOf (installs : List PackageInstall) : Store :=
  (Store.given (installs.map .packageInstall)).register .added 0

theorem storeOf_reached (installs : List PackageInstall) :
    (storeOf installs).Reached Change.any :=
  .change (.register .added 0) trivial (Store.given_reached _)

/-- What comes of adding the package to such a store. -/
def added (installs : List PackageInstall) : Store :=
  ((Script.add (.package package) .ofExcept).run (.controller 0 {})
    { store := storeOf installs }).2.store

end Isolation

open Isolation

/-- An install that no package satisfies does not get in the way of the next one. -/
theorem add_package_isolated_unsatisfied :
    ((added [first (some "9.9.9") .null, second]).find? second.appId).isSome = true ∧
      ((added [first (some "9.9.9") .null, second]).find? second.appId).map Resource.unversioned =
        ((added [second]).find? second.appId).map Resource.unversioned := by
  refine ⟨by decide +kernel, ?_⟩
  refine add_package_isolated (Behaviour.controller_watches 0 {})
    (w := { store := storeOf [first (some "9.9.9") .null, second] })
    (v := { store := storeOf [second] }) (A := first (some "9.9.9") .null) (B := second)
    (storeOf_reached _) (storeOf_reached _) ⟨by decide +kernel, rfl⟩ (by decide +kernel)
    (by decide +kernel) (by decide +kernel) (by decide) ?_
  intro e h
  have hwanted : ((storeOf [first (some "9.9.9") .null, second]).write (.package package)).wanted
      {} (Resource.packageInstall (first (some "9.9.9") .null)).id =
        .error (.noPackage "p" "9.9.9" "apps/a") := rfl
  cases hwanted.symm.trans h
  rfl

/-- **An install whose annotations are a list gets in the way of the next one.** Installs are read
with any annotations, and there is no message about these: the call that the package gave rise to
ends with the first install. -/
theorem add_package_fault :
    ∃ (A B : PackageInstall) (docA docB docP : Value),
      Resource.parse docA = .ok (.packageInstall A) ∧
      Resource.parse docB = .ok (.packageInstall B) ∧
      Resource.parse docP = .ok (.package package) ∧ A ≠ B ∧
      A.asksFor package = true ∧ B.asksFor package = true ∧
      (storeOf [A, B]).Reached Change.any ∧ (storeOf [B]).Reached Change.any ∧
      (storeOf [A, B]).Without A (storeOf [B]) ∧
      (storeOf [A, B]).registrations = [(.added, 0)] ∧
      (added [A, B]).find? B.appId = none ∧ ((added [B]).find? B.appId).isSome = true := by
  let annotations : Value := .list (some 2) [mapping [("k", .str "v")]]
  refine ⟨first none annotations, second,
    document .packageInstall "a" [("annotations", annotations)]
      [("packageRef", mapping [("refName", .str "p"), ("versionSelection", mapping [])])],
    document .packageInstall "b" [] [("packageRef", mapping [("refName", .str "p")])],
    document .package "p" [] [("refName", .str "p"), ("version", .str "1.0.0")], rfl, rfl, rfl,
    by decide, ?_⟩
  exact ⟨by decide +kernel, by decide +kernel, storeOf_reached _, storeOf_reached _,
    ⟨by decide +kernel, rfl⟩, rfl, by decide +kernel, by decide +kernel⟩

end AppSynthesis
