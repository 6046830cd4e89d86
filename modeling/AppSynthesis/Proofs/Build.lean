/-
AppSynthesis.Proofs.Build — building an App once comes to what a controller stores.

* `Store.Loaded` — what holds of a store with what documents describe; `Store.loadFiles_loaded`,
  every store that was loaded from files is such a store.
* `Value.unversioned` — a document without the version in its metadata;
  `App.toDoc_unversioned`, the document of an App without its version.
* `Store.Loaded.buildApp` — the App that is built is the one that a controller wants for the
  install, if the global namespace makes no difference to it.
* `BuildRequest.document_of_reconcile` — building fails with the error that a reconciliation
  fails with, or prints the document of the App that it stores, without the version.

A build looks for packages in the namespace of the install only. So the two come apart when a
package lies in the global namespace of the controller (`BuildRequest.document_global`).
-/
import AppSynthesis.Build
import AppSynthesis.Proofs.Controller.Effect
import AppSynthesis.Proofs.Controller.Settled
import AppSynthesis.Proofs.Manifest.Document
import AppSynthesis.Proofs.Resolution
import AppSynthesis.Proofs.Value.Path
import Mathlib.Data.List.Basic

namespace AppSynthesis

open Store (Change)

/-! ## Stores that were loaded -/

/-- What holds of a store with what documents describe. -/
structure Store.Loaded (s : Store) : Prop where
  reached : s.Reached Change.any
  /-- A document of a package says where the package lies. -/
  packages : ∀ p ∈ s.packages, p.ns.isTrue = true

namespace Store

theorem Loaded.empty : Loaded {} := ⟨Reached.empty, fun _ hp => nomatch hp⟩

theorem Loaded.add {s : Store} (h : s.Loaded) {doc : Value} {obj : Resource}
    (hobj : Resource.parse doc = .ok obj) : (s.add obj).2.Loaded where
  reached := .change (.add obj) trivial h.reached
  packages := by
    intro p hp
    rcases add_store h.reached.sound.refusals obj with hs | ⟨_, hs⟩
    · exact h.packages p (hs ▸ hp)
    · rw [hs] at hp
      obtain ⟨o, ho, hop⟩ := List.mem_filterMap.mp hp
      obtain ⟨e, he, rfl⟩ := List.mem_map.mp ho
      rcases mem_place he with ⟨hwritten, _⟩ | he
      · rw [hwritten] at hop
        cases Resource.parse_eq_ok hobj with
        | app _ => cases hop
        | packageInstall _ => cases hop
        | package hparse => exact Option.some.inj hop ▸ (Package.parse_eq_ok hparse).2.1
      · exact h.packages p (List.mem_filterMap.mpr ⟨e.2, List.mem_map_of_mem he, hop⟩)

theorem load_loaded : ∀ {docs : List Value} {s t : Store}, s.Loaded →
    load docs s = .ok t → t.Loaded
  | [], s, t, hs, h => Except.ok.inj h ▸ hs
  | doc :: rest, s, t, hs, h => by
    rw [load] at h
    obtain ⟨obj, hobj, h⟩ := bind_eq_ok.mp h
    have hadded := hs.add hobj
    split at h
    · cases h
    · rename_i hadd
      rw [hadd] at hadded
      exact load_loaded hadded h

/-- **A store that was loaded from files is one that can be reached**, and its packages lie
in namespaces. -/
theorem loadFiles_loaded {read : String → Except Fault String} :
    ∀ {paths : List String} {s t : Store} {next last : Nat}, s.Loaded →
      loadFiles read paths s next = .ok (t, last) → t.Loaded
  | [], s, t, next, last, hs, h => by
    cases h
    exact hs
  | path :: rest, s, t, next, last, hs, h => by
    rw [loadFiles] at h
    obtain ⟨⟨docs, _⟩, _, h⟩ := bind_eq_ok.mp h
    obtain ⟨u, hu, h⟩ := bind_eq_ok.mp h
    exact loadFiles_loaded (load_loaded hs hu) h

end Store

/-! ## Documents without a version -/

/-- A document without the version in its metadata. -/
def Value.unversioned : Value → Value
  | .map origin entries => .map origin (entries.map fun e =>
      if e.1 = .str "metadata" then (e.1, e.2.without "resourceVersion") else e)
  | v => v

/-- The metadata without the version hold all other members. -/
theorem App.metadataOf_without {entries others : Entries}
    (hsame : ∀ key ∈ metadataKeys, key ≠ "resourceVersion" →
      Entries.get? entries key = Entries.get? others key)
    (hnone : Entries.get? others "resourceVersion" = none) :
    (Value.map none (metadataOf entries)).without "resourceVersion" =
      .map none (metadataOf others) := by
  show Value.map none ((metadataOf entries).filter _) = _
  unfold metadataOf
  rw [List.filter_filterMap]
  refine congrArg _ (List.filterMap_congr fun key hkey => ?_)
  by_cases hversion : key = "resourceVersion"
  · subst hversion
    rw [hnone]
    cases Entries.get? entries "resourceVersion" with
    | none => rfl
    | some v => rfl
  · rw [hsame key hkey hversion]
    cases Entries.get? others key with
    | none => rfl
    | some v => simp [hversion]

/-- A document of an App without the version is one in which all else is the same. -/
theorem App.docOf_unversioned {entries others : Entries}
    (hsame : ∀ key ∈ metadataKeys ++ ["spec", "status"], key ≠ "resourceVersion" →
      Entries.get? entries key = Entries.get? others key)
    (hnone : Entries.get? others "resourceVersion" = none) :
    (docOf entries).unversioned = docOf others := by
  have hmetadata := metadataOf_without
    (fun key hkey => hsame key (List.mem_append_left _ hkey)) hnone
  have hspec : Entries.getD entries "spec" = Entries.getD others "spec" :=
    congrArg (·.getD .null) (hsame "spec" (by decide) (by decide))
  have hstatus := hsame "status" (by decide) (by decide)
  have hdoc : (docOf entries).unversioned = .map none ([
      (.str "apiVersion", .str (Api.version Api.appGroup)),
      (.str "kind", .str Kind.app.name),
      (.str "metadata", (Value.map none (metadataOf entries)).without "resourceVersion"),
      (.str "spec", Entries.getD entries "spec")]
      ++ (Entries.get? entries "status").elim [] fun v => [(.str "status", v)]) := by
    unfold docOf
    cases Entries.get? entries "status" <;> rfl
  rw [hdoc, hmetadata, hspec, hstatus]
  unfold docOf
  cases Entries.get? others "status" <;> rfl

/-- **The document of an App without its version** is that of the App that has none. -/
theorem App.toDoc_unversioned (x : App) :
    x.toDoc.map Value.unversioned = (x.withVersion .null).toDoc := by
  obtain ⟨hname, hns, huid, _, hannotations, hlabels, howners, hspec, hstatus, _⟩ := x.written
  obtain ⟨hname', hns', huid', hversion', hannotations', hlabels', howners', hspec', hstatus', _⟩ :=
    (x.withVersion .null).written
  have hwritable : (x.withVersion .null).isWritable = x.isWritable := rfl
  unfold toDoc
  rw [hwritable]
  split
  · refine congrArg Except.ok (docOf_unversioned ?_ hversion')
    simp only [metadataKeys, List.cons_append, List.nil_append, List.forall_mem_cons]
    exact ⟨fun _ => hname.trans hname'.symm, fun _ => hns.trans hns'.symm,
      fun _ => huid.trans huid'.symm, fun h => absurd rfl h,
      fun _ => hannotations.trans hannotations'.symm, fun _ => hlabels.trans hlabels'.symm,
      fun _ => howners.trans howners'.symm, fun _ => hspec.trans hspec'.symm,
      fun _ => hstatus.trans hstatus'.symm, nofun⟩
  · rfl

/-! ## Building and reconciling -/

/-- None of the packages that an install may mean lies in the global namespace alone. -/
def PackageInstall.MeansLocal (install : PackageInstall) (packages : List Package)
    (globalNamespace : Option String) : Prop :=
  ∀ refName, install.refName? = some refName →
    ∀ p ∈ candidates packages install refName globalNamespace, p.ns.agrees install.ns = true

section

variable {s : Store} {install : PackageInstall} {config : ControllerConfig}

/-- Nothing is found for the App of an install where there are no Apps. -/
theorem Store.Sound.find?_appId (hs : s.Sound)
    (happs : ∀ obj ∈ s.objects.map (·.2), obj.kind ≠ .app) (install : PackageInstall) :
    s.find? install.appId = none := by
  rcases hfind : s.find? install.appId with _ | obj
  · rfl
  · obtain ⟨x, rfl⟩ := hs.app_of_find? rfl hfind
    obtain ⟨i, hmem, _⟩ := Store.find?_mem hfind
    exact absurd rfl (happs _ (List.mem_map_of_mem hmem))

/-- **The App that is built is the one that a controller wants** for the install, if the
global namespace makes no difference to it. -/
theorem Store.Loaded.buildApp (hs : s.Loaded) (hinstall : s.installs = [install])
    (happs : ∀ obj ∈ s.objects.map (·.2), obj.kind ≠ .app)
    (hlocal : install.MeansLocal s.packages config.globalNamespace) {d : Duration}
    (hoptions : config.options = { defaultSyncPeriod := some d }) (path : String) :
    AppSynthesis.buildApp s path (.ok none) d =
      (s.wanted config (Resource.packageInstall install).id).map (·.app) := by
  have hsound := hs.reached.sound
  have hread := hsound.installAt_of_mem (hinstall ▸ List.mem_singleton.mpr rfl)
  have happ : s.appOf install = none := by
    unfold appOf
    rw [hsound.find?_appId happs]
    rfl
  have hmeans : resolvePackage s.packages install config.globalNamespace =
      resolvePackage s.packages install none :=
    resolvePackage_congr fun refName hrefName =>
      candidates_local hs.packages (hlocal refName hrefName)
  unfold AppSynthesis.buildApp Store.onlyInstall Store.wanted
  simp only [hinstall, hread, hmeans, hoptions, bind, Except.bind, pure, Except.pure]
  rcases resolvePackage s.packages install none with e | package
  · rfl
  · simp only [happ]
    rcases newApp none install package { defaultSyncPeriod := some d } with e | a <;> rfl

/-- An App that was made without one before can be written, and has no version. -/
theorem newApp_none {package : Package} {options : Options} {a : App}
    (h : newApp none install package options = .ok a) :
    a.isWritable = true ∧ a.withVersion .null = a := by
  rcases newApp_cases h with ⟨hmanual, _⟩ | ⟨_, _, _, _, _, _, rfl⟩
  · cases hmanual
  · exact ⟨rfl, rfl⟩

/-- **What is wanted where there are no Apps is stored** under the next version, and read from
there its document differs in nothing but the version. -/
theorem put_new {behaviour : Behaviour} {own : ListenerId} (hb : behaviour.Watches own config)
    (depth : Nat) {w : LiveStore} (hs : w.store.Sound)
    (happs : ∀ obj ∈ w.store.objects.map (·.2), obj.kind ≠ .app) {id : ResourceId} {r : Wanted}
    (h : w.store.wanted config id = .ok r) :
    ∃ doc, (w.put (deliver behaviour depth) r.app).2.store.find? r.install.appId =
        some (.app (w.put (deliver behaviour depth) r.app).1) ∧
      (w.put (deliver behaviour depth) r.app).1.toDoc = .ok doc ∧
      r.app.toDoc = .ok doc.unversioned := by
  obtain ⟨happId, hatomic, hsame⟩ := hs.id_wanted h
  obtain ⟨_, _, hmade⟩ := Store.wanted_eq_ok.mp h
  have hnone := hs.find?_appId happs r.install
  rw [Store.appOf, hnone] at hmade
  obtain ⟨hwritable, hversion⟩ := newApp_none hmade
  have hholds : w.store.holds (.app r.app) = false := by
    unfold Store.holds
    rw [hs.find?_congr hatomic happId hsame, hnone]
  generalize hput : w.put (deliver behaviour depth) r.app = result
  unfold LiveStore.put at hput
  rw [hholds, if_neg Bool.false_ne_true] at hput
  subst hput
  obtain ⟨registrations, hstore, _⟩ := notify_quiet hb depth .added (Resource.app r.app).id
    (r.app.withVersion (.str (Numeral.ofNat (w.store.revision + 1))))
    { w with store := w.store.write (.app r.app) }
  obtain ⟨doc, hdoc⟩ : ∃ doc,
      (r.app.withVersion (.str (Numeral.ofNat (w.store.revision + 1)))).toDoc = .ok doc :=
    ⟨_, if_pos hwritable⟩
  refine ⟨doc, ?_, hdoc, ?_⟩
  · refine (congrArg (·.find? r.install.appId) hstore).trans ?_
    exact hs.find?_write hatomic happId hsame
  · have hdocs := App.toDoc_unversioned
      (r.app.withVersion (.str (Numeral.ofNat (w.store.revision + 1))))
    rw [hdoc] at hdocs
    exact (congrArg App.toDoc hversion).symm.trans hdocs.symm

/-- **Building an App comes to what a controller stores.** Files with one install, with
packages and without Apps are loaded, and a controller holds the same resources. If the global
namespace makes no difference to the package that the install means, building fails with the
error that reconciling the install fails with, or prints the document of the App that is
stored then, without its version. -/
theorem BuildRequest.document_of_reconcile {behaviour : Behaviour} {own : ListenerId}
    (hb : behaviour.Watches own config) {r : BuildRequest} {read : String → Except Fault String}
    {next : Nat} (hload : Store.loadFiles read (r.install :: r.packages) {} 0 = .ok (s, next))
    (hexisting : r.existing = none) (hinstall : s.installs = [install])
    (happs : ∀ obj ∈ s.objects.map (·.2), obj.kind ≠ .app)
    (hlocal : install.MeansLocal s.packages config.globalNamespace)
    (hoptions : config.options = { defaultSyncPeriod := some r.defaultSyncPeriod })
    {w : LiveStore} (hw : s.Resubscribed w.store) :
    (∃ e, r.document read = .error e ∧
      (reconcile config (Resource.packageInstall install).id).run behaviour w = (.error e, w)) ∨
    ∃ stored w' doc,
      (reconcile config (Resource.packageInstall install).id).run behaviour w = (.ok stored, w') ∧
      w'.store.find? install.appId = some (.app stored) ∧
      stored.toDoc = .ok doc ∧ r.document read = .ok doc.unversioned.yaml := by
  have hs : s.Loaded := Store.loadFiles_loaded .empty hload
  have hbuild : r.app read =
      (s.wanted config (Resource.packageInstall install).id).map (·.app) := by
    unfold app existingApp
    rw [hexisting, hload]
    exact hs.buildApp hinstall happs hlocal hoptions r.install
  rw [← hw.wanted] at hbuild
  obtain ⟨registrations, hstore⟩ := hw
  have hobjects : w.store.objects = s.objects := by rw [hstore]
  have hinstalls : w.store.installs = [install] := by
    rw [hstore]
    exact hinstall
  have hsound : w.store.Sound :=
    hstore ▸ hs.reached.sound.of_sublist hs.reached.sound.refusals (List.Sublist.refl _)
  obtain ⟨written, hwritten⟩ := hs.reached.history
  have hhistory : w.store.History written :=
    hstore ▸ hwritten.of_subset rfl (List.Subset.refl _)
  unfold document Script.run
  rw [hbuild, reconcile_alone hsound hhistory]
  rcases hwanted : w.store.wanted config (Resource.packageInstall install).id with e | found
  · exact Or.inl ⟨e, rfl, rfl⟩
  · obtain ⟨doc, hfind, hdoc, hbuilt⟩ :=
      put_new hb nestingLimit hsound (hobjects ▸ happs) hwanted
    have hread := hsound.installAt_of_mem (hinstalls ▸ List.mem_singleton.mpr rfl)
    have hfound : found.install = install := Store.install_of_wanted hwanted hread
    refine Or.inr ⟨_, _, doc, rfl, hfound ▸ hfind, hdoc, ?_⟩
    show (do return (← found.app.toDoc).yaml) = _
    rw [hbuilt]
    rfl

end

/-! ## Local and global packages -/

namespace BuildRequest

/-- An install that asks for the package `p`. -/
def sampleInstall : PackageInstall :=
  { name := .str "w", ns := .str "a", spec := { packageRef := some { refName := "p" } } }

/-- A package of that name in a namespace. -/
def samplePackage (ns : String) : Package :=
  { name := .str "p", ns := .str ns, refName := .str "p", version := "1.0.0" }

/-- The files of the install and of the package. -/
def sampleFile (ns path : String) : Except Fault String :=
  if path = "install.yaml" then .ok "kind: PackageInstall
apiVersion: packaging.carvel.dev
metadata:
  name: w
  namespace: a
spec:
  packageRef:
    refName: p
"
  else if path = "package.yaml" then .ok ("kind: Package
apiVersion: data.packaging.carvel.dev
metadata:
  name: p
  namespace: " ++ ns ++ "
spec:
  refName: p
  version: 1.0.0
")
  else .error .noFile

/-- The store with what the files describe. -/
def sampleStore (ns : String) : Store where
  objects := [((Resource.packageInstall sampleInstall).id, .packageInstall sampleInstall),
    ((Resource.package (samplePackage ns)).id, .package (samplePackage ns))]

def sample : BuildRequest := { install := "install.yaml", packages := ["package.yaml"] }

/-- What comes of reconciling the install in a controller that holds both. -/
def sampleRun (ns : String) : Except Error App × LiveStore :=
  (reconcile {} (Resource.packageInstall sampleInstall).id).run (.controller 0 {})
    { store := (sampleStore ns).register .added 0 }

/-- A package that lies in the namespace of the install is found by both. -/
theorem document_of_reconcile_local :
    ∃ stored w' doc next,
      Store.loadFiles (sampleFile "a") (sample.install :: sample.packages) {} 0 =
        .ok (sampleStore "a", next) ∧
      sampleRun "a" = (.ok stored, w') ∧
      w'.store.find? sampleInstall.appId = some (.app stored) ∧
      stored.toDoc = .ok doc ∧ sample.document (sampleFile "a") = .ok doc.unversioned.yaml := by
  have hload : Store.loadFiles (sampleFile "a") (sample.install :: sample.packages) {} 0 =
      .ok (sampleStore "a", 34) := toOption_eq_some.mp (by decide +kernel)
  have hlocal : sampleInstall.MeansLocal (sampleStore "a").packages
      (some "kapp-controller-packaging-global") := by
    intro refName hrefName
    obtain rfl : "p" = refName := Option.some.inj hrefName
    decide +kernel
  have hdone : (sampleRun "a").1.toOption.isSome = true := by decide +kernel
  rcases document_of_reconcile (Behaviour.controller_watches 0 {}) hload rfl rfl (by decide) hlocal
    rfl (w := { store := (sampleStore "a").register .added 0 }) ⟨_, rfl⟩ with
    ⟨e, _, hrun⟩ | ⟨stored, w', doc, hrun, h⟩
  · rw [sampleRun, hrun] at hdone
    cases hdone
  · exact ⟨stored, w', doc, 34, hload, hrun, h⟩

/-- **A package that lies in the global namespace is found by a reconciliation and not by a
build.** -/
theorem document_global :
    ∃ ns next stored w',
      ControllerConfig.globalNamespace {} = some ns ∧
      ControllerConfig.options {} = { defaultSyncPeriod := some sample.defaultSyncPeriod } ∧
      Store.loadFiles (sampleFile ns) (sample.install :: sample.packages) {} 0 =
        .ok (sampleStore ns, next) ∧
      sampleRun ns = (.ok stored, w') ∧
      w'.store.find? sampleInstall.appId = some (.app stored) ∧
      sample.document (sampleFile ns) = .error (.noPackage "p" "*" "a/w") := by
  let ns : String := "kapp-controller-packaging-global"
  have hload : Store.loadFiles (sampleFile ns) (sample.install :: sample.packages) {} 0 =
      .ok (sampleStore ns, 34) := toOption_eq_some.mp (by decide +kernel)
  have hdocument : sample.document (sampleFile ns) = .error (.noPackage "p" "*" "a/w") := by
    unfold document app
    rw [hload]
    rfl
  have hstored : (sampleRun ns).1.toOption.isSome = true ∧
      (sampleRun ns).2.store.find? sampleInstall.appId =
        (sampleRun ns).1.toOption.map Resource.app := by decide +kernel
  rcases hrun : sampleRun ns with ⟨e | stored, w'⟩
  · rw [hrun] at hstored
    cases hstored.1
  · rw [hrun] at hstored
    exact ⟨ns, 34, stored, w', rfl, rfl, hload, hrun, hstored.2, hdocument⟩

end BuildRequest

end AppSynthesis
