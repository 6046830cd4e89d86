/-
AppSynthesis.Proofs.Synthesis.Document — the synthesis from its own document.

* `App.inert_detached` — where the collections of an App come from makes no difference to
  the synthesis.
* `newApp_readable` — the App that is made of resources that were read is read from its own
  document.
* `newApp_of_document` — built again from that document it has the same document.

The App that is read is the one that was written up to the origins of its collections
(`App.parse_toDoc`). A rebuild from the same inputs changes nothing (`Rebuild.apply_again`),
and origins are carried along. What is left is that every App the synthesis makes is
readable: its parts were read from documents, and the names that are put into them are text.
-/
import AppSynthesis.Proofs.Manifest.Document
import AppSynthesis.Proofs.Synthesis.Inherited
import AppSynthesis.Proofs.Synthesis.Rebuild

namespace AppSynthesis

/-! ## Origins -/

theorem isManuallyControlled_detached (v : Value) :
    isManuallyControlled v.detached = isManuallyControlled v := by cases v <;> rfl

theorem carriedEntries_detached (v : Value) : carriedEntries v.detached = carriedEntries v := by
  cases v <;> rfl

/-- Where the collections of an App come from makes no difference. -/
theorem App.inert_detached : App.Inert App.detached where
  manual x := isManuallyControlled_detached x.annotations
  carried x := carriedEntries_detached x.annotations
  owners _ := rfl
  written _ _ _ _ _ _ := rfl

/-! ## Reading what was built -/

theorem Codec.readsBack_of_isText {v : Value} (h : v.isText = true) : anyText.ReadsBack v := by
  cases v <;> cases h
  rfl

theorem OwnerReference.upsert_ne_nil (ref : OwnerReference) (refs : List OwnerReference) :
    ref.upsert refs ≠ [] := by
  cases refs with
  | nil => exact List.cons_ne_nil _ _
  | cons r rest =>
    rw [upsert]
    split <;> exact List.cons_ne_nil _ _

/-- The steps of a template that was given are read back. -/
theorem AppSpec.stepsHave_of_given {spec : AppSpec} (h : AppSpec.schema.codec.Given spec) :
    spec.StepsHave @Codec.ReadsBack := by
  obtain ⟨hfetch, htemplate, hdeploy, _⟩ :=
    Schema.each_given_of_codec (RecordType.regular .appSpec) h
  exact {
    fetch := fun xs hxs => Codec.stable_list (RecordType.stable .fetchStep rfl) xs (hfetch xs hxs)
    template := fun xs hxs =>
      Codec.stable_list (RecordType.stable .templateStep rfl) xs (htemplate xs hxs)
    deploy := fun xs hxs =>
      Codec.stable_list (Codec.stable_mapOf Codec.stable_any) xs (hdeploy xs hxs) }

theorem InstallSpec.cluster_readsBack {spec : InstallSpec}
    (h : InstallSpec.schema.codec.Given spec) :
    ∀ c ∈ spec.cluster, Cluster.schema.codec.ReadsBack c := by
  obtain ⟨_, _, _, _, _, _, _, hcluster, _⟩ :=
    Schema.each_given_of_codec (RecordType.regular .installSpec) h
  exact fun c hc => RecordType.stable .cluster rfl c (hcluster c hc)

section

variable {existing : Option App} {install : PackageInstall} {package : Package}
  {options : Options} {a : App}

/-- **The App that is made can be written and is read again.** -/
theorem newApp_readable
    (hexisting : ∀ e ∈ existing, (∃ doc, App.parse doc = .ok e) ∧ e.isWritable = true)
    (hinstall : ∃ doc, PackageInstall.parse doc = .ok install)
    (hpackage : ∃ doc, Package.parse doc = .ok package)
    (hname : install.name.isText = true) (huid : install.uid.isText = true)
    (hannotations : ∀ annotations, Annotations.ofValue install.annotations = .ok annotations →
      ∀ e ∈ annotations, e.2.isText = true)
    (hperiod : ∀ d ∈ a.spec.syncPeriod, Codec.duration.ReadsBack d)
    (h : newApp existing install package options = .ok a) : a.Readable ∧ a.isWritable = true := by
  rcases newApp_cases h with ⟨hmanual, rfl⟩ | ⟨entries, refs, annotations, _, hrefs, hmap, rfl⟩
  · -- Nothing was built: the App is the one that was read.
    rcases existing with _ | e
    · cases hmanual
    · obtain ⟨⟨doc, hdoc⟩, hwritable⟩ := hexisting e rfl
      exact ⟨App.readable_of_parse hdoc hperiod, hwritable⟩
  · obtain ⟨_, hinstall⟩ := hinstall
    obtain ⟨_, hpackage⟩ := hpackage
    obtain ⟨hnameTrue, hnsTrue, hspec⟩ := PackageInstall.parse_eq_ok hinstall
    obtain ⟨_, _, htemplate⟩ := Package.parse_eq_ok hpackage
    have hbefore : (∀ refs ∈ (existing.getD {}).ownerReferences,
        (Codec.list OwnerReference.schema.codec).ReadsBack refs) ∧
        (existing.getD {}).isWritable = true := by
      rcases existing with _ | e
      · exact ⟨nofun, rfl⟩
      · obtain ⟨⟨doc, hdoc⟩, hwritable⟩ := hexisting e rfl
        obtain ⟨_, _, _, howners, _⟩ := App.parse_eq_ok hdoc
        exact ⟨howners, hwritable⟩
    obtain ⟨howners, hwritable⟩ := hbefore
    refine ⟨⟨hnameTrue, hnsTrue, fun hnil => ?_, fun xs hxs => ?_, ?_⟩, ?_⟩
    · obtain ⟨_, _, _, hclaim⟩ := Owner.controlOf_eq_ok.mp hrefs
      exact OwnerReference.upsert_ne_nil _ _
        ((App.claim_eq_ok.mp hclaim).2.symm.trans (Option.some.inj hnil))
    · obtain rfl := Option.mem_some.mp hxs
      refine controlOf_inherits Codec.inherited_readsBack (Codec.readsBack_of_isText hname)
        (Codec.readsBack_of_isText huid) ?_ hrefs
      exact howners
    · exact desiredSpec_inherits Codec.inherited_readsBack
        (fun e he => Codec.readsBack_of_isText (hannotations annotations hmap e he))
        (AppSpec.stepsHave_of_given htemplate) (InstallSpec.cluster_readsBack hspec) hperiod
    · -- The annotations are a map now; labels and status are those of the App before.
      unfold App.isWritable at hwritable ⊢
      rw [Bool.and_eq_true, Bool.and_eq_true] at hwritable ⊢
      exact ⟨⟨rfl, hwritable.1.2⟩, hwritable.2⟩

/-- **What was built is built again from its own document.** The App that is made of
resources that were read is read from the document it is written as, and the synthesis from
that App comes to the same document. The sync period has to be one that is read back. -/
theorem newApp_of_document
    (hexisting : ∀ e ∈ existing, (∃ doc, App.parse doc = .ok e) ∧ e.isWritable = true)
    (hinstall : ∃ doc, PackageInstall.parse doc = .ok install)
    (hpackage : ∃ doc, Package.parse doc = .ok package)
    (hname : install.name.isText = true) (huid : install.uid.isText = true)
    (hannotations : ∀ annotations, Annotations.ofValue install.annotations = .ok annotations →
      ∀ e ∈ annotations, e.2.isText = true)
    (hperiod : ∀ d ∈ a.spec.syncPeriod, parseDuration (.str d.text) = .ok (some d))
    (h : newApp existing install package options = .ok a) :
    ∃ doc parsed again, a.toDoc = .ok doc ∧ App.parse doc = .ok parsed ∧
      newApp (some parsed) install package options = .ok again ∧ again.toDoc = .ok doc := by
  obtain ⟨hreadable, hwritable⟩ := newApp_readable hexisting hinstall hpackage hname huid
    hannotations (fun d hd => Codec.readsBack_duration (hperiod d hd)) h
  obtain ⟨doc, hdoc, hparsed⟩ := App.parse_toDoc hreadable hwritable
  have hagain : newApp (some a) install package options = .ok a :=
    Rebuild.apply_again (r := ⟨install, package, options⟩)
      ((Value.same_of_isText hname).mpr rfl) h
  have hdetached : newApp (some a.detached) install package options = .ok a.detached := by
    rw [newApp_inert App.inert_detached, hagain]
    rfl
  exact ⟨doc, a.detached, a.detached, hdoc, hparsed, hdetached, a.toDoc_detached.trans hdoc⟩

end

/-- An App that a cluster reports on and another object owns too is built again for an install
with a secret for a fetch step, files for ytt and declared values for helm. -/
theorem newApp_of_document_upgrade :
    ∃ (existing : App) (install : PackageInstall) (package : Package) (a : App),
      newApp (some existing) install package {} = .ok a ∧
      existing.status ≠ .null ∧ a.ownerReferences.map List.length = some 2 ∧
      a.spec.syncPeriod = some .tenMinutes ∧ (a.spec.template.getD []).length = 2 ∧
      ∃ doc parsed again, a.toDoc = .ok doc ∧ App.parse doc = .ok parsed ∧
        newApp (some parsed) install package {} = .ok again ∧ again.toDoc = .ok doc := by
  let map (entries : List (String × Value)) : Value :=
    .map (some 1) (entries.map fun e => (.str e.1, e.2))
  let list (items : List Value) : Value := .list (some 2) items
  let pod : OwnerReference := { apiVersion := "v1", kind := "Pod", name := .str "web" }
  let existing : App :=
    { name := .str "web", ns := .str "apps", uid := .str "u-1", resourceVersion := .str "7"
      annotations := map [(Annotations.packageVersion, .str "1.0.0"), ("note", .str "kept")]
      labels := map [("team", .str "a")]
      ownerReferences := some [pod]
      spec := { paused := some true }
      status := map [("ready", .bool true)] }
  have hexisting : App.parse (map [("apiVersion", .str "kappctrl.k14s.io/v1alpha1"),
      ("metadata", map [("name", existing.name), ("namespace", existing.ns),
        ("uid", existing.uid), ("resourceVersion", existing.resourceVersion),
        ("annotations", existing.annotations), ("labels", existing.labels),
        ("ownerReferences", list [map [("apiVersion", .str "v1"), ("kind", .str "Pod"),
          ("name", .str "web")]])]),
      ("spec", map [("paused", .bool true)]), ("status", existing.status)]) = .ok existing := rfl
  let install : PackageInstall :=
    { name := .str "web", ns := .str "apps", uid := .str "u-2"
      annotations := map [(Annotations.fetchSecret 0, .str "registry"),
        (Annotations.yttPathsSecret, .str "files")]
      spec :=
        { packageRef := some { refName := "web.example.com" }
          values := some [{ secretRef := some { name := "values", key := none } }] } }
  have hinstall : PackageInstall.parse (map [("apiVersion", .str "packaging.carvel.dev/v1alpha1"),
      ("metadata", map [("name", install.name), ("namespace", install.ns), ("uid", install.uid),
        ("annotations", install.annotations)]),
      ("spec", map [("packageRef", map [("refName", .str "web.example.com")]),
        ("values", list [map [("secretRef", map [("name", .str "values")])]])])]) =
      .ok install := rfl
  let package : Package :=
    { name := .str "web.2.0.0", ns := .str "apps", refName := .str "web.example.com"
      version := "2.0.0"
      template :=
        { fetch := some [{ image := some { url := some "registry/web" } }]
          template := some [{ helmTemplate := some {} }, { ytt := some {} }]
          deploy := some [[("kapp", map [])]] } }
  have hpackage : Package.parse (map [("apiVersion", .str "data.packaging.carvel.dev/v1alpha1"),
      ("metadata", map [("name", package.name), ("namespace", package.ns)]),
      ("spec", map [("refName", package.refName), ("version", .str "2.0.0"),
        ("template", map [("spec", map [
          ("fetch", list [map [("image", map [("url", .str "registry/web")])]]),
          ("template", list [map [("helmTemplate", map [])], map [("ytt", map [])]]),
          ("deploy", list [map [("kapp", map [])]])])])])]) = .ok package := rfl
  obtain ⟨a, ha, howners, hdefault, hsteps⟩ : ∃ a,
      newApp (some existing) install package {} = .ok a ∧
        a.ownerReferences.map List.length = some 2 ∧ a.spec.syncPeriod = some .tenMinutes ∧
        (a.spec.template.getD []).length = 2 := ⟨_, rfl, by decide +kernel⟩
  have hannotations : ∀ annotations, Annotations.ofValue install.annotations = .ok annotations →
      ∀ e ∈ annotations, e.2.isText = true := by
    intro annotations h
    obtain rfl := Except.ok.inj h
    decide
  have hperiod : ∀ d ∈ a.spec.syncPeriod, parseDuration (.str d.text) = .ok (some d) := by
    intro d hd
    obtain rfl : Duration.tenMinutes = d := Option.some.inj (hdefault.symm.trans hd)
    have hparse : (Duration.parse Duration.tenMinutes.text).toOption = some .tenMinutes := by
      decide +kernel
    unfold parseDuration
    dsimp only
    rw [toOption_eq_some.mp hparse]
  exact ⟨existing, install, package, a, ha, nofun, howners, hdefault, hsteps,
    newApp_of_document (fun e he => Option.mem_some.mp he ▸ ⟨⟨_, hexisting⟩, rfl⟩)
      ⟨_, hinstall⟩ ⟨_, hpackage⟩ rfl rfl hannotations hperiod ha⟩

end AppSynthesis
