/-
AppSynthesis.Proofs.Synthesis.App — what the synthesis makes of an App, step by
step.

* `App.Carries` — the App is not under manual control, and these are the
  annotations that it brings along.
* `newApp_of_manual`, `newApp_of_carries` — the synthesis in the two cases that
  can succeed, and `newApp_cases`, what it was made of when it did.
* `App.Kept` — what of an App survives, and `newApp_kept`, that it does.
* `App.Inert`, `newApp_inert` — a change that is carried along and nothing depends on;
  `newApp_withVersion`, the version of the App is one.
-/
import AppSynthesis.Proofs.Ownership.References
import AppSynthesis.Proofs.Value.Entries
import AppSynthesis.Synthesis.App

namespace AppSynthesis

/-! ## Annotations that are carried over -/

/-- A map without entries does not count as given, and does not hold the mark either. -/
theorem isManuallyControlled_map (origin : Origin) (entries : Entries) :
    isManuallyControlled (.map origin entries) =
      .ok (Entries.hasKey entries Annotations.manuallyControlled) := by
  cases entries <;> rfl

theorem carriedEntries_map (origin : Origin) (entries : Entries) :
    carriedEntries (.map origin entries) = .ok entries := by
  cases entries <;> rfl

/-- The App is not under manual control and carries these annotations. -/
structure App.Carries (app : App) (entries : Entries) : Prop where
  free : isManuallyControlled app.annotations = .ok false
  carried : carriedEntries app.annotations = .ok entries

/-- The mark of manual control is not among annotations that are carried over. -/
theorem App.Carries.not_hasKey {app : App} {entries : Entries} (h : app.Carries entries) :
    Entries.hasKey entries Annotations.manuallyControlled = false := by
  obtain ⟨hfree, hcarried⟩ := h
  unfold carriedEntries at hcarried
  unfold isManuallyControlled at hfree
  by_cases ht : app.annotations.isTrue = true
  · rw [if_pos ht] at hcarried hfree
    rcases ha : app.annotations with _ | _ | _ | _ | _ | _ | _ | ⟨_, es⟩ <;>
      rw [ha] at hcarried hfree <;> cases hcarried
    exact Except.ok.inj hfree
  · rw [if_neg ht] at hcarried
    cases hcarried
    rfl

/-- The annotations with a package recorded, as entries. -/
def recordedEntries (entries : Entries) (package : Package) : Entries :=
  Entries.insert (Entries.insert entries (.str Annotations.packageRefName) package.refName)
    (.str Annotations.packageVersion) (.str package.version)

theorem recordPackage_eq (entries : Entries) (package : Package) :
    recordPackage entries package = .map none (recordedEntries entries package) := rfl

/-- Of two packages recorded one after the other the later counts. -/
theorem recordedEntries_recordedEntries (entries : Entries) (p q : Package) :
    recordedEntries (recordedEntries entries p) q = recordedEntries entries q := by
  have hne : Annotations.packageRefName ≠ Annotations.packageVersion := by decide
  unfold recordedEntries
  rw [Entries.insert_rewrite hne, Entries.insert_insert]

/-- Whether a key is none of those under which the package is recorded. -/
def isForeign (key : Value) : Bool :=
  decide (key ≠ .str Annotations.packageRefName ∧ key ≠ .str Annotations.packageVersion)

/-- Foreign annotations are kept, in their order. -/
theorem filter_recordedEntries (entries : Entries) (package : Package) :
    (recordedEntries entries package).filter (fun e => isForeign e.1) =
      entries.filter fun e => isForeign e.1 := by
  unfold recordedEntries
  rw [Entries.filter_insert _ (by decide), Entries.filter_insert _ (by decide)]

/-- An App with a package recorded carries its annotations again. -/
theorem App.Carries.recorded {app x : App} {entries : Entries} (h : app.Carries entries)
    {package : Package} (hx : x.annotations = recordPackage entries package) :
    x.Carries (recordedEntries entries package) := by
  have hfree : Entries.hasKey (recordedEntries entries package) Annotations.manuallyControlled =
      false := by
    have hkey := h.not_hasKey
    unfold Entries.hasKey recordedEntries at *
    rw [Entries.get?_insert_other (by decide), Entries.get?_insert_other (by decide)]
    exact hkey
  constructor
  · rw [hx, recordPackage_eq, isManuallyControlled_map, hfree]
  · rw [hx, recordPackage_eq, carriedEntries_map]

/-! ## The synthesis, case by case -/

/-- The App under the name of an install, with a package recorded. -/
def App.named (app : App) (install : PackageInstall) (entries : Entries) (package : Package) :
    App :=
  { app with
    name := install.name
    ns := install.ns
    annotations := recordPackage entries package }

variable {existing : Option App} {install : PackageInstall} {package : Package}
  {options : Options}

/-- An App under manual control is left as it is. -/
theorem newApp_of_manual
    (h : isManuallyControlled (existing.getD {}).annotations = .ok true) :
    newApp existing install package options = .ok (existing.getD {}) := by
  unfold newApp
  simp only [h, bind, Except.bind, pure, Except.pure, if_true]

/-- Any other App comes under the control of the install and takes its
specification from install and package. -/
theorem newApp_of_carries {entries : Entries} (h : (existing.getD {}).Carries entries) :
    newApp existing install package options = do
      let app := (existing.getD {}).named install entries package
      let refs ← install.owner.controlOf app options.scheme
      let annotations ← Annotations.ofValue install.annotations
      return { app with
        ownerReferences := some refs
        spec := desiredSpec install annotations package options } := by
  unfold newApp
  simp only [h.free, h.carried, bind, Except.bind, pure, Except.pure, App.named,
    Bool.false_eq_true, if_false]

/-- What an App was made of. -/
theorem newApp_cases {a : App} (h : newApp existing install package options = .ok a) :
    (isManuallyControlled (existing.getD {}).annotations = .ok true ∧ a = existing.getD {}) ∨
    ∃ entries refs annotations, (existing.getD {}).Carries entries ∧
      install.owner.controlOf ((existing.getD {}).named install entries package)
        options.scheme = .ok refs ∧
      Annotations.ofValue install.annotations = .ok annotations ∧
      a = { (existing.getD {}).named install entries package with
        ownerReferences := some refs
        spec := desiredSpec install annotations package options } := by
  rcases hm : isManuallyControlled (existing.getD {}).annotations with e | (_ | _)
  · unfold newApp at h
    simp only [hm, bind, Except.bind] at h
    cases h
  · rcases hc : carriedEntries (existing.getD {}).annotations with e | entries
    · unfold newApp at h
      simp only [hm, hc, bind, Except.bind, Bool.false_eq_true, if_false] at h
      cases h
    · refine Or.inr ⟨entries, ?_⟩
      have hcarries : (existing.getD {}).Carries entries := ⟨hm, hc⟩
      rw [newApp_of_carries hcarries] at h
      simp only [bind, Except.bind, pure, Except.pure] at h
      split at h
      · cases h
      · rename_i refs hrefs
        split at h
        · cases h
        · rename_i annotations hannotations
          exact ⟨refs, annotations, hcarries, hrefs, hannotations, (Except.ok.inj h).symm⟩
  · rw [newApp_of_manual hm] at h
    exact Or.inl ⟨rfl, (Except.ok.inj h).symm⟩

/-- What went wrong: the annotations of the App, the owner, or the annotations of
the install. -/
theorem newApp_error_cases {e : Error}
    (h : newApp existing install package options = .error e) :
    isManuallyControlled (existing.getD {}).annotations = .error e ∨
    carriedEntries (existing.getD {}).annotations = .error e ∨
    (∃ app, install.owner.controlOf app options.scheme = .error e) ∨
    Annotations.ofValue install.annotations = .error e := by
  rcases hm : isManuallyControlled (existing.getD {}).annotations with e' | (_ | _)
  · unfold newApp at h
    simp only [hm, bind, Except.bind] at h
    exact Or.inl (congrArg _ (Except.error.inj h))
  · rcases hc : carriedEntries (existing.getD {}).annotations with e' | entries
    · unfold newApp at h
      simp only [hm, hc, bind, Except.bind, Bool.false_eq_true, if_false] at h
      exact Or.inr (Or.inl (congrArg _ (Except.error.inj h)))
    · have hcarries : (existing.getD {}).Carries entries := ⟨hm, hc⟩
      rw [newApp_of_carries hcarries] at h
      simp only [bind, Except.bind] at h
      split at h
      · rename_i hcontrol
        exact Or.inr (Or.inr (Or.inl ⟨_, Except.error.inj h ▸ hcontrol⟩))
      · split at h
        · rename_i hannotations
          exact Or.inr (Or.inr (Or.inr (Except.error.inj h ▸ hannotations)))
        · cases h
  · rw [newApp_of_manual hm] at h
    cases h

/-! ## What is kept -/

/-- Whether a reference is to an install. -/
def OwnerReference.isTo (r : OwnerReference) (install : PackageInstall) (scheme : Scheme) : Bool :=
  match scheme.kindOf? .packageInstall with
  | some g => r.refersTo (.controlling g install.name install.uid)
  | none => false

/-- The foreign annotations of an App, in their order. -/
def App.foreignAnnotations (app : App) : Except Error Entries :=
  (carriedEntries app.annotations).map fun entries => entries.filter fun e => isForeign e.1

/-- What one App keeps of another: all that others may have written. -/
structure App.Kept (before after : App) (install : PackageInstall) (scheme : Scheme) : Prop where
  uid : after.uid = before.uid
  version : after.resourceVersion = before.resourceVersion
  labels : after.labels = before.labels
  status : after.status = before.status
  annotations : after.foreignAnnotations = before.foreignAnnotations
  /-- References to other owners are kept, in their order. -/
  owners : ((before.ownerReferences.getD []).filter fun r => !r.isTo install scheme).Sublist
    (after.ownerReferences.getD [])

/-- **The synthesis keeps what others wrote** on the App. -/
theorem newApp_kept {a : App} (h : newApp existing install package options = .ok a) :
    (existing.getD {}).Kept a install options.scheme := by
  rcases newApp_cases h with ⟨_, rfl⟩ | ⟨entries, refs, _, hcarries, hrefs, _, rfl⟩
  · exact ⟨rfl, rfl, rfl, rfl, rfl, List.filter_sublist⟩
  · refine ⟨rfl, rfl, rfl, rfl, ?_, ?_⟩
    · unfold App.foreignAnnotations
      rw [hcarries.carried, (hcarries.recorded rfl).carried]
      exact congrArg Except.ok (filter_recordedEntries entries package)
    · obtain ⟨g, hg, _, hclaim⟩ := Owner.controlOf_eq_ok.mp hrefs
      have hto : ∀ r : OwnerReference, r.isTo install options.scheme =
          r.refersTo (.controlling g install.name install.uid) := by
        intro r
        unfold OwnerReference.isTo
        rw [show options.scheme.kindOf? .packageInstall = some g from hg]
      simp only [hto]
      rw [(App.claim_eq_ok.mp hclaim).2]
      exact OwnerReference.others_sublist_upsert _ _

/-! ## What makes no difference -/

/-- A change of an App that the synthesis carries along: it is not about the owners, what is
carried over is the same, and what the synthesis writes it leaves alone. -/
structure App.Inert (f : App → App) : Prop where
  manual : ∀ x, isManuallyControlled (f x).annotations = isManuallyControlled x.annotations
  carried : ∀ x, carriedEntries (f x).annotations = carriedEntries x.annotations
  owners : ∀ x, (f x).ownerReferences = x.ownerReferences
  written : ∀ x install entries package refs spec,
    { (f x).named install entries package with ownerReferences := refs, spec := spec } =
      f { x.named install entries package with ownerReferences := refs, spec := spec }

/-- Such a change is carried along, and nothing else depends on it. -/
theorem newApp_inert {f : App → App} (hf : App.Inert f) (x : App) :
    newApp (some (f x)) install package options =
      (newApp (some x) install package options).map f := by
  have hcongr : ∀ entries,
      install.owner.controlOf ((f x).named install entries package) options.scheme =
      install.owner.controlOf (x.named install entries package) options.scheme :=
    fun entries => Owner.controlOf_congr rfl rfl (hf.owners x)
  rcases hm : isManuallyControlled x.annotations with e | (_ | _)
  · unfold newApp
    simp only [Option.getD_some, hf.manual, hm]
    rfl
  · rcases hc : carriedEntries x.annotations with e | entries
    · unfold newApp
      simp only [Option.getD_some, hf.manual, hf.carried, hm, hc]
      rfl
    · have hx : ((some x).getD {}).Carries entries := ⟨hm, hc⟩
      have hfx : ((some (f x)).getD {}).Carries entries :=
        ⟨(hf.manual x).trans hm, (hf.carried x).trans hc⟩
      rw [newApp_of_carries hx, newApp_of_carries hfx]
      simp only [Option.getD_some, hcongr]
      rcases install.owner.controlOf (x.named install entries package) options.scheme with
        e | refs
      · rfl
      · rcases Annotations.ofValue install.annotations with e | annotations
        · rfl
        · exact congrArg Except.ok (hf.written x install entries package _ _)
  · have hx : isManuallyControlled ((some x).getD {}).annotations = .ok true := hm
    have hfx : isManuallyControlled ((some (f x)).getD {}).annotations = .ok true :=
      (hf.manual x).trans hm
    rw [newApp_of_manual hx, newApp_of_manual hfx]
    rfl

/-- The App with another version. -/
def App.withVersion (version : Value) (app : App) : App := { app with resourceVersion := version }

/-- The version of an App is carried along, and nothing else depends on it. -/
theorem newApp_withVersion (x : App) (version : Value) :
    newApp (some (x.withVersion version)) install package options =
      (newApp (some x) install package options).map (·.withVersion version) :=
  have hinert : App.Inert (·.withVersion version) :=
    ⟨fun _ => rfl, fun _ => rfl, fun _ => rfl, fun _ _ _ _ _ _ => rfl⟩
  newApp_inert hinert x

end AppSynthesis
