/-
AppSynthesis.Proofs.Synthesis.Frame — what the synthesis writes and what it leaves
alone.

* `AppSpec.withControls`, `Package.withControls` — the same steps under other
  controls; `newApp_withControls` — these make no difference to any App.
* `newApp_spec` — the specification of an App that is not under manual control
  comes from install, package and options, whatever the App was before.
* `AppSpec.ControlledBy` — the controls that an install sets, and
  `desiredSpec_controlledBy`, that it sets all of them.
* `App.Framed` — what is written besides, and what is kept.
* `newApp_frame` — all of this for two Apps that exist, side by side.

Nothing is compared field by field here: the specification is replaced as a whole, so
it is enough that the inputs of `desiredSpec` do not mention the App, and that
`controlledSpec` overwrites every control of the template.
-/
import AppSynthesis.Proofs.Synthesis.App

namespace AppSynthesis

/-! ## Controls -/

/-- The steps of a specification under the controls of another. -/
def AppSpec.withControls (spec controls : AppSpec) : AppSpec :=
  { controls with fetch := spec.fetch, template := spec.template, deploy := spec.deploy }

/-- A package whose template has other controls. -/
def Package.withControls (package : Package) (controls : AppSpec) : Package :=
  { package with template := package.template.withControls controls }

/-- The controls of a specification are those that an install sets; only the sync
period may come from the options instead. -/
structure AppSpec.ControlledBy (spec : AppSpec) (install : InstallSpec) (options : Options) :
    Prop where
  serviceAccountName : spec.serviceAccountName = install.serviceAccountName
  syncPeriod : spec.syncPeriod = (install.syncPeriod <|> options.defaultSyncPeriod)
  noopDelete : spec.noopDelete = some install.noopDelete
  paused : spec.paused = some install.paused
  canceled : spec.canceled = some install.canceled
  cluster : spec.cluster = install.cluster
  defaultNamespace : spec.defaultNamespace = install.defaultNamespace

variable {existing : Option App} {install : PackageInstall} {package : Package}
  {options : Options}

theorem desiredSpec_controlledBy (annotations : Annotations) :
    (desiredSpec install annotations package options).ControlledBy install.spec options :=
  ⟨rfl, rfl, rfl, rfl, rfl, rfl, rfl⟩

theorem desiredSpec_withControls (annotations : Annotations) (controls : AppSpec) :
    desiredSpec install annotations (package.withControls controls) options =
      desiredSpec install annotations package options := rfl

/-- The controls of a template make no difference. -/
theorem newApp_withControls (existing : Option App) (install : PackageInstall)
    (package : Package) (options : Options) (controls : AppSpec) :
    newApp existing install (package.withControls controls) options =
      newApp existing install package options := by
  have hrecord : ∀ entries, recordPackage entries (package.withControls controls) =
      recordPackage entries package := fun _ => rfl
  unfold newApp
  simp only [hrecord, desiredSpec_withControls]

/-! ## The specification -/

/-- The specification does not depend on the App that exists. -/
theorem newApp_spec {a : App}
    (hfree : isManuallyControlled (existing.getD {}).annotations = .ok false)
    (h : newApp existing install package options = .ok a) :
    ∃ annotations, Annotations.ofValue install.annotations = .ok annotations ∧
      a.spec = desiredSpec install annotations package options := by
  rcases newApp_cases h with ⟨hmanual, _⟩ | ⟨_, _, annotations, _, _, hannotations, rfl⟩
  · rw [hfree] at hmanual
    cases hmanual
  · exact ⟨annotations, hannotations, rfl⟩

/-! ## Everything else -/

/-- An App that was made for an install from the one that exists, apart from its
specification. -/
structure App.Framed (existing : Option App) (install : PackageInstall) (scheme : Scheme)
    (a : App) : Prop where
  name : a.name = install.name
  ns : a.ns = install.ns
  /-- Identity, version, labels, status and references to other owners are kept. -/
  kept : (existing.getD {}).Kept a install scheme
  /-- So are all annotations that do not record the package, in their order. -/
  annotations : ∃ entries, (existing.getD {}).foreignAnnotations = .ok entries ∧
    a.foreignAnnotations = .ok entries

theorem newApp_framed {a : App}
    (hfree : isManuallyControlled (existing.getD {}).annotations = .ok false)
    (h : newApp existing install package options = .ok a) :
    App.Framed existing install options.scheme a := by
  have hkept := newApp_kept h
  rcases newApp_cases h with ⟨hmanual, _⟩ | ⟨entries, _, _, hcarries, _, _, rfl⟩
  · rw [hfree] at hmanual
    cases hmanual
  · have hforeign : (existing.getD {}).foreignAnnotations =
        .ok (entries.filter fun e => isForeign e.1) := by
      unfold App.foreignAnnotations
      rw [hcarries.carried]
      rfl
    exact ⟨rfl, rfl, hkept, _, hforeign, hkept.annotations.trans hforeign⟩

/-- **What the synthesis writes and what it leaves alone.** Of two Apps that are not
under manual control the same install and package make the same specification; the
controls of the package's template do not matter, those of the install are set, and the
deploy steps are the template's. All that others may have written on the two Apps is
kept. -/
theorem newApp_frame {e₁ e₂ : Option App} {a₁ a₂ : App}
    (hfree₁ : isManuallyControlled (e₁.getD {}).annotations = .ok false)
    (hfree₂ : isManuallyControlled (e₂.getD {}).annotations = .ok false)
    (h₁ : newApp e₁ install package options = .ok a₁)
    (h₂ : newApp e₂ install package options = .ok a₂) :
    a₁.spec = a₂.spec ∧
    (∀ e controls, newApp e install (package.withControls controls) options =
      newApp e install package options) ∧
    a₁.spec.ControlledBy install.spec options ∧
    a₁.spec.deploy = package.template.deploy ∧
    App.Framed e₁ install options.scheme a₁ ∧ App.Framed e₂ install options.scheme a₂ := by
  obtain ⟨annotations, hannotations, hspec₁⟩ := newApp_spec hfree₁ h₁
  obtain ⟨annotations', hannotations', hspec₂⟩ := newApp_spec hfree₂ h₂
  obtain rfl := Except.ok.inj (hannotations.symm.trans hannotations')
  refine ⟨hspec₁.trans hspec₂.symm, fun e controls => newApp_withControls e _ _ _ controls, ?_, ?_,
    newApp_framed hfree₁ h₁, newApp_framed hfree₂ h₂⟩
  · rw [hspec₁]
    exact desiredSpec_controlledBy annotations
  · rw [hspec₁]
    rfl

/-- An App that was paused by hand, labelled and given to a second owner comes to the
same specification as one that did not exist. -/
theorem newApp_frame_stale :
    ∃ (install : PackageInstall) (package : Package) (stale a₁ a₂ : App),
      isManuallyControlled stale.annotations = .ok false ∧
      newApp (some stale) install package {} = .ok a₁ ∧ newApp none install package {} = .ok a₂ ∧
      stale.spec.paused = some true ∧ package.template.paused = some true ∧
      a₁.spec = a₂.spec ∧ a₁.spec.ControlledBy install.spec {} ∧
      App.Framed (some stale) install .standard a₁ := by
  let web : PackageInstall := { name := .str "web", ns := .str "apps" }
  let package : Package :=
    { name := .str "p", ns := .str "apps", refName := .str "p.example.com", version := "2.0.0"
      template := { fetch := some [{ image := some { url := some "registry/web" } }]
                    paused := some true } }
  let stale : App :=
    { name := .str "web", ns := .str "apps", uid := .str "u-1", resourceVersion := .str "7"
      annotations := .map none [(.str Annotations.packageVersion, .str "1.0.0"),
        (.str "note", .str "kept")]
      labels := .map none [(.str "team", .str "a")]
      ownerReferences := some [{ apiVersion := "v1", kind := "Pod", name := .str "web" }]
      spec := { paused := some true, deploy := some [] } }
  obtain ⟨a₁, h₁⟩ : ∃ a, newApp (some stale) web package {} = .ok a := ⟨_, rfl⟩
  obtain ⟨a₂, h₂⟩ : ∃ a, newApp none web package {} = .ok a := ⟨_, rfl⟩
  have hstale : isManuallyControlled ((some stale).getD {}).annotations = .ok false := rfl
  have hnone : isManuallyControlled ((none : Option App).getD {}).annotations = .ok false := rfl
  obtain ⟨hspec, _, hcontrolled, _, hframed, _⟩ := newApp_frame hstale hnone h₁ h₂
  exact ⟨web, package, stale, a₁, a₂, hstale, h₁, h₂, rfl, rfl, hspec, hcontrolled, hframed⟩

end AppSynthesis
