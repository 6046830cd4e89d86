/-
AppSynthesis.Proofs.Synthesis.Outcome — when an App is made, and why none is.

* `App.IsManual` — the mark of manual control is among the annotations of an App.
* `App.FirstController` — the first of its references that is marked as a controller.
* `App.Outcome` — how the synthesis ends for an App that is not under manual control: which
  error there is, and when there is none.
* `newApp_outcome` — it ends in this way, and an App under manual control is left as it is.

The checks come in a fixed order: the kind of installs is looked up, the namespaces are
compared, and the former controller is compared with the install. The second of them cannot
fail, for the App was given the namespace of the install before (`controlOf_named`).
-/
import AppSynthesis.Proofs.Ownership.Controller
import AppSynthesis.Proofs.Synthesis.WellFormed

namespace AppSynthesis

/-! ## Apps that exist -/

/-- Whether annotations are absent or a map. -/
def Value.isMapping : Value → Bool
  | .null => true
  | .map _ _ => true
  | _ => false

/-- The mark of manual control is among the annotations of the App, whatever its value is. -/
def App.IsManual (app : App) : Prop :=
  ∃ origin entries value, app.annotations = .map origin entries ∧
    (.str Annotations.manuallyControlled, value) ∈ entries

/-- The first of the references of the App that is marked as a controller. -/
def App.FirstController (app : App) (r : OwnerReference) : Prop :=
  ∃ before after, app.ownerReferences = some (before ++ r :: after) ∧
    r.controller = some true ∧ ∀ r' ∈ before, r'.controller ≠ some true

variable {app : App}

theorem Entries.hasKey_iff {entries : Entries} {key : String} :
    Entries.hasKey entries key = true ↔ ∃ value, (.str key, value) ∈ entries := by
  simp [hasKey, get?, List.find?_isSome]

theorem App.IsManual.isManuallyControlled (h : app.IsManual) :
    isManuallyControlled app.annotations = .ok true := by
  obtain ⟨origin, entries, value, hannotations, hmem⟩ := h
  rw [hannotations, isManuallyControlled_map, Entries.hasKey_iff.mpr ⟨value, hmem⟩]

/-- The annotations of any other App are carried over. -/
theorem App.carries_of_not_manual (hmap : app.annotations.isMapping = true)
    (h : ¬app.IsManual) : ∃ entries, app.Carries entries := by
  cases hannotations : app.annotations with
  | null => exact ⟨[], by rw [hannotations]; rfl, by rw [hannotations]; rfl⟩
  | map origin entries =>
    refine ⟨entries, ?_, by rw [hannotations, carriedEntries_map]⟩
    have hkey : Entries.hasKey entries Annotations.manuallyControlled = false := by
      rw [Bool.eq_false_iff]
      intro hkey
      obtain ⟨value, hmem⟩ := Entries.hasKey_iff.mp hkey
      exact h ⟨origin, entries, value, hannotations, hmem⟩
    rw [hannotations, isManuallyControlled_map, hkey]
  | _ =>
    rw [hannotations] at hmap
    cases hmap

theorem App.firstController_iff {r : OwnerReference} :
    app.FirstController r ↔ app.controllerReference? = some r := by
  unfold FirstController controllerReference?
  rw [List.find?_eq_some_iff_append]
  constructor
  · rintro ⟨before, after, hrefs, hmark, hbefore⟩
    exact ⟨by simpa using hmark, before, after, by simp [hrefs], by simpa using hbefore⟩
  · rintro ⟨hmark, before, after, hrefs, hbefore⟩
    rcases happ : app.ownerReferences with _ | refs
    · simp [happ] at hrefs
    · exact ⟨before, after, by simpa [happ] using hrefs, by simpa using hmark,
        by simpa using hbefore⟩

/-! ## The owner of the App -/

/-- The reference to an install of a kind, as its controller. -/
def PackageInstall.reference (install : PackageInstall) (g : GroupVersionKind) : OwnerReference :=
  .controlling g install.name install.uid

variable {existing : Option App} {install : PackageInstall} {package : Package}
  {entries : Entries}

/-- The name and the namespace that an App is given are not about its controller. -/
theorem App.firstController_named {r : OwnerReference} :
    (app.named install entries package).FirstController r ↔ app.FirstController r := Iff.rfl

/-- An App in the namespace of its install is not refused for its namespace. -/
theorem controlOf_named {scheme : Scheme} (hns : install.ns.same install.ns = true) :
    install.owner.controlOf (app.named install entries package) scheme =
      (scheme.kindOf .packageInstall).bind fun g =>
        (app.named install entries package).claim (install.reference g) := by
  have hcheck : checkNamespaces install.ns install.ns = .ok () := by
    simp [checkNamespaces, hns]
  unfold Owner.controlOf
  refine bind_congr fun g => ?_
  show (checkNamespaces install.ns install.ns).bind _ = _
  rw [hcheck]
  rfl

/-- The owner of an App is refused when another one is its first controller. -/
theorem App.claim_cases (app : App) (ref : OwnerReference) :
    (∃ r, app.FirstController r ∧ ¬r.Coreferent ref ∧
      app.claim ref = .error (.alreadyOwned app.namespacedName (r.kind ++ "/" ++ r.name.text))) ∨
    ((∀ r, app.FirstController r → r.Coreferent ref) ∧ ∃ refs, app.claim ref = .ok refs) := by
  simp only [firstController_iff]
  unfold claim
  rcases hfirst : app.controllerReference? with _ | r
  · exact Or.inr ⟨by simp, _, rfl⟩
  · by_cases href : r.refersTo ref = true
    · refine Or.inr ⟨fun r' hr' => ?_, _, if_pos href⟩
      exact Option.some.inj hr' ▸ OwnerReference.refersTo_iff.mp href
    · exact Or.inl ⟨r, rfl, mt OwnerReference.refersTo_iff.mpr href, if_neg href⟩

/-! ## Outcomes -/

/-- How the synthesis ends for an App that is not under manual control. -/
structure App.Outcome (app : App) (install : PackageInstall) (scheme : Scheme)
    (result : Except Error App) : Prop where
  /-- The kind of installs has to be known. -/
  unregistered : result = .error (.notRegistered RecordType.packageInstall.name) ↔
    scheme.kindOf? .packageInstall = none
  /-- The first controller of the App has to be the install. -/
  owned : ∀ object owner, result = .error (.alreadyOwned object owner) ↔
    ∃ g r, scheme.kindOf? .packageInstall = some g ∧ app.FirstController r ∧
      ¬r.Coreferent (install.reference g) ∧ object = install.namespacedName ∧
      owner = r.kind ++ "/" ++ r.name.text
  /-- Nothing else is asked for. -/
  made : (∃ a, result = .ok a) ↔ ∃ g, scheme.kindOf? .packageInstall = some g ∧
    ∀ r, app.FirstController r → r.Coreferent (install.reference g)
  /-- The namespaces are never found to differ. -/
  inNamespace : ∀ owner object, result ≠ .error (.crossNamespace owner object)

namespace App.Outcome

variable {scheme : Scheme} {g : GroupVersionKind}

theorem of_unregistered (h : scheme.kindOf? .packageInstall = none) :
    app.Outcome install scheme (.error (.notRegistered RecordType.packageInstall.name)) := by
  constructor <;> simp [h]

theorem of_owned (hg : scheme.kindOf? .packageInstall = some g) {r : OwnerReference}
    (hfirst : app.FirstController r) (hother : ¬r.Coreferent (install.reference g)) :
    app.Outcome install scheme
      (.error (.alreadyOwned install.namespacedName (r.kind ++ "/" ++ r.name.text))) := by
  have honly : ∀ r', app.FirstController r' → r' = r := by
    intro r' hr'
    rw [firstController_iff] at hfirst hr'
    exact Option.some.inj (hr'.symm.trans hfirst)
  constructor
  case unregistered => simp [hg]
  case owned =>
    intro object owner
    constructor
    · intro h
      injection h with h
      injection h with hobject howner
      exact ⟨g, r, hg, hfirst, hother, hobject.symm, howner.symm⟩
    · rintro ⟨-, r', -, hr', -, rfl, rfl⟩
      rw [honly r' hr']
  case made =>
    refine iff_of_false (by simp) ?_
    rintro ⟨g', hg', hall⟩
    obtain rfl := Option.some.inj (hg.symm.trans hg')
    exact hother (hall r hfirst)
  case inNamespace => simp

theorem of_made (hg : scheme.kindOf? .packageInstall = some g)
    (hown : ∀ r, app.FirstController r → r.Coreferent (install.reference g)) (a : App) :
    app.Outcome install scheme (.ok a) := by
  constructor
  case unregistered => simp [hg]
  case owned =>
    intro object owner
    refine iff_of_false (by simp) ?_
    rintro ⟨g', r, hg', hr, hother, -, -⟩
    obtain rfl := Option.some.inj (hg.symm.trans hg')
    exact hother (hown r hr)
  case made => exact iff_of_true ⟨a, rfl⟩ ⟨g, hg, hown⟩
  case inNamespace => simp

end App.Outcome

/-- What becomes of an App whose annotations are carried over. -/
theorem outcome_of_carries (package : Package) (options : Options)
    (hcarries : (existing.getD {}).Carries entries)
    (hinstall : install.annotations.isTextMap = true) (hns : install.ns.same install.ns = true) :
    (existing.getD {}).Outcome install options.scheme
      (newApp existing install package options) := by
  obtain ⟨annotations, hannotations⟩ := Annotations.ofValue_ok hinstall
  rw [newApp_of_carries hcarries]
  simp only [controlOf_named hns, hannotations, Scheme.kindOf]
  rcases hg : options.scheme.kindOf? .packageInstall with _ | g
  · exact .of_unregistered hg
  · simp only [Except.bind]
    rcases ((existing.getD {}).named install entries package).claim_cases (install.reference g)
      with ⟨r, hfirst, hother, hclaim⟩ | ⟨hown, refs, hclaim⟩ <;> rw [hclaim]
    · exact .of_owned hg (App.firstController_named.mp hfirst) hother
    · exact .of_made hg (fun r hr => hown r (App.firstController_named.mpr hr)) _

/-- **When an App is made, and why none is.** An App under manual control is left as it is. For
any other, and for none, it is an error if the kind of installs is not known; otherwise it is an
error if the first controller of the App is another owner than the install; otherwise an App is
made. The annotations of the App are absent or a map, those of the install absent or a map with
text keys, and the namespace of the install equals itself, as all text does. -/
theorem newApp_outcome (existing : Option App) (install : PackageInstall) (package : Package)
    (options : Options) (hexisting : (existing.getD {}).annotations.isMapping = true) :
    ((existing.getD {}).IsManual →
      newApp existing install package options = .ok (existing.getD {})) ∧
    (¬(existing.getD {}).IsManual → install.annotations.isTextMap = true →
      install.ns.same install.ns = true →
      (existing.getD {}).Outcome install options.scheme
        (newApp existing install package options)) := by
  refine ⟨fun hmanual => newApp_of_manual hmanual.isManuallyControlled,
    fun hmanual hinstall hns => ?_⟩
  obtain ⟨entries, hcarries⟩ := App.carries_of_not_manual hexisting hmanual
  exact outcome_of_carries package options hcarries hinstall hns

/-- An App that the install controls as well, but another install before it. Its annotations name
the manual control as a value only. -/
theorem newApp_outcome_owned :
    ∃ (app : App) (install : PackageInstall) (package : Package)
      (unmarked other own : OwnerReference),
      app.ownerReferences = some [unmarked, other, own] ∧ unmarked.Coreferent own ∧
      app.FirstController other ∧ own.controller = some true ∧ ¬app.IsManual ∧
      newApp (some app) install package {} =
        .error (.alreadyOwned "apps/web" "PackageInstall/other") := by
  let unmarked : OwnerReference :=
    { apiVersion := "packaging.carvel.dev/v1", kind := "PackageInstall", name := .str "web" }
  let own : OwnerReference := { unmarked with controller := some true }
  let other : OwnerReference := { own with name := .str "other" }
  let app : App :=
    { annotations := .map none [(.str "note", .str Annotations.manuallyControlled)]
      ownerReferences := some [unmarked, other, own] }
  let install : PackageInstall := { name := .str "web", ns := .str "apps" }
  let package : Package :=
    { name := .str "p", ns := .str "apps", refName := .str "p.example.com", version := "1.0.0" }
  let g : GroupVersionKind := .ofApiVersion "packaging.carvel.dev/v1alpha1" "PackageInstall"
  have hfirst : app.FirstController other := ⟨[unmarked], [own], rfl, rfl, by simp [unmarked]⟩
  have hmanual : ¬app.IsManual := by
    rintro ⟨origin, entries, value, hannotations, hmem⟩
    injection hannotations with _ hentries
    subst hentries
    simp [Annotations.manuallyControlled] at hmem
  have houtcome := (newApp_outcome (some app) install package {} rfl).2 hmanual rfl (by decide)
  exact ⟨app, install, package, unmarked, other, own, rfl, by decide +kernel, hfirst, rfl, hmanual,
    (houtcome.owned _ _).mpr ⟨g, other, by decide +kernel, hfirst, by decide +kernel, by decide,
      by decide⟩⟩

end AppSynthesis
