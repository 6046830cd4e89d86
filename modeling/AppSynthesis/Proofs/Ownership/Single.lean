/-
AppSynthesis.Proofs.Ownership.Single — whether an App that an owner was given control of has a
single controller.

* `OwnerReference.controllers` — the references that are marked as controllers.
* `OwnerReference.MarkedFirst` — no marked reference comes after one to the owner.
* `OwnerReference.Upserted.controllers_eq` — the new reference is followed by those marked
  references that come after the one in whose place it is.
* `controlOfRecord_controllers` — so an App with one controller at most has a single one
  afterwards exactly when its controller was marked in the first reference to the owner.
* `controlOfRecord_two_controllers` — otherwise it has two.

The former controller is compared with the owner, and the first reference to the owner is
replaced. When an owner is listed under two versions these need not be the same entry.
-/
import AppSynthesis.Proofs.Ownership.Controller

namespace AppSynthesis

/-! ## Marked references -/

namespace OwnerReference

variable {ref : OwnerReference} {given refs before after : List OwnerReference}

/-- The references that are marked as controllers. -/
def controllers (refs : List OwnerReference) : List OwnerReference :=
  refs.filter fun r => r.controller = some true

/-- No marked reference comes after one to the owner of `ref`. -/
def MarkedFirst (ref : OwnerReference) (refs : List OwnerReference) : Prop :=
  refs.Pairwise fun earlier later => later.controller = some true → ¬earlier.Coreferent ref

instance (ref : OwnerReference) (refs : List OwnerReference) : Decidable (MarkedFirst ref refs) :=
  inferInstanceAs (Decidable (List.Pairwise _ _))

theorem controllers_eq_nil : controllers refs = [] ↔ ∀ r ∈ refs, r.controller ≠ some true := by
  simp [controllers]

/-- Where the first marked reference is to the owner, no reference is marked before the first one
to the owner. -/
theorem controllers_before (after : List OwnerReference) (hfree : ∀ r,
      (before ++ after).find? (fun r => r.controller = some true) = some r → r.Coreferent ref)
    (hbefore : ∀ r ∈ before, ¬r.Coreferent ref) : controllers before = [] := by
  induction before with
  | nil => rfl
  | cons r rest ih =>
    obtain ⟨hr, hrest⟩ := List.forall_mem_cons.mp hbefore
    have hmark : r.controller ≠ some true := by
      intro hmark
      exact hr (hfree r (by simp [hmark]))
    have hnil : controllers rest = [] := ih (fun x hx => hfree x (by simpa [hmark] using hx)) hrest
    rw [controllers_eq_nil] at hnil ⊢
    exact List.forall_mem_cons.mpr ⟨hmark, hnil⟩

theorem markedFirst_of_unmarked (h : controllers refs = []) : MarkedFirst ref refs := by
  rw [controllers_eq_nil] at h
  induction refs with
  | nil => exact .nil
  | cons r rest ih =>
    obtain ⟨-, hrest⟩ := List.forall_mem_cons.mp h
    exact .cons (fun x hx hmark => absurd hmark (hrest x hx)) (ih hrest)

/-- With no marked reference before the first one to the owner, none may come after it. -/
theorem markedFirst_iff {old : OwnerReference} (hold : old.Coreferent ref)
    (hbefore : ∀ r ∈ before, ¬r.Coreferent ref) (hunmarked : controllers before = []) :
    MarkedFirst ref (before ++ old :: after) ↔ controllers after = [] := by
  unfold MarkedFirst
  rw [List.pairwise_append, List.pairwise_cons, controllers_eq_nil]
  constructor
  · rintro ⟨-, ⟨hafter, -⟩, -⟩ r hr hmark
    exact hafter r hr hmark hold
  · intro hafter
    refine ⟨markedFirst_of_unmarked hunmarked, ⟨fun r hr hmark => absurd hmark (hafter r hr),
      markedFirst_of_unmarked (controllers_eq_nil.mpr hafter)⟩, fun r hr _ _ _ => hbefore r hr⟩

/-- The references that are marked afterwards: the new one, and those after the one in whose
place it is. -/
theorem Upserted.controllers_eq (h : Upserted ref given refs) (href : ref.controller = some true)
    (hfree : ∀ r,
      given.find? (fun r => r.controller = some true) = some r → r.Coreferent ref) :
    ∃ later, controllers refs = ref :: later ∧ later.Sublist (controllers given) ∧
      (later = [] ↔ MarkedFirst ref given) := by
  rcases h with ⟨before, old, after, rfl, hold, hbefore, rfl⟩ | ⟨hnone, rfl⟩
  · have hunmarked : controllers before = [] := controllers_before (old :: after) hfree hbefore
    refine ⟨controllers after, ?_, ?_, (markedFirst_iff hold hbefore hunmarked).symm⟩
    · unfold controllers at hunmarked ⊢
      simp [hunmarked, href]
    · exact ((List.sublist_cons_self old after).trans (List.sublist_append_right before _)).filter _
  · have hunmarked : controllers given = [] :=
      controllers_before [] (by simpa using hfree) hnone
    refine ⟨[], ?_, List.nil_sublist _, iff_of_true rfl (markedFirst_of_unmarked hunmarked)⟩
    unfold controllers at hunmarked ⊢
    simp [hunmarked, href]

end OwnerReference

/-! ## Giving control -/

variable {owner : Option Record} {app : App} {scheme : Scheme} {refs : List OwnerReference}

/-- **When an App has a single controller.** An App that had at most one controller has the
owner that is given control as its only one, exactly when no marked reference comes after one to
this owner. Otherwise the former mark stays, and there are two. -/
theorem controlOfRecord_controllers
    (hone : (OwnerReference.controllers (app.ownerReferences.getD [])).length ≤ 1)
    (h : controlOfRecord owner (some ⟨.app, app⟩) scheme = .ok refs) :
    ∃ g name uid, scheme.kindOfRecord owner = .ok g ∧ Record.member owner "name" = .ok name ∧
      Record.member owner "uid" = .ok uid ∧
      (OwnerReference.controllers refs = [.controlling g name uid] ↔
        OwnerReference.MarkedFirst (.controlling g name uid) (app.ownerReferences.getD [])) ∧
      (¬OwnerReference.MarkedFirst (.controlling g name uid) (app.ownerReferences.getD []) →
        ∃ marked, OwnerReference.controllers (app.ownerReferences.getD []) = [marked] ∧
          OwnerReference.controllers refs = [.controlling g name uid, marked]) := by
  obtain ⟨g, ns, name, uid, hg, -, -, hname, huid, hclaim⟩ := controlOfRecord_eq_ok.mp h
  obtain ⟨hfree, hrefs⟩ := App.claim_eq_ok.mp hclaim
  obtain ⟨later, hcontrollers, hlater, hfirst⟩ :=
    (OwnerReference.upsert_iff.mpr hrefs).controllers_eq rfl fun r hr =>
      OwnerReference.refersTo_iff.mp (hfree r hr)
  refine ⟨g, name, uid, hg, hname, huid, ?_, fun hnot => ?_⟩
  · rw [hcontrollers, ← hfirst]
    simp
  · -- What is left of at most one marked reference is that one.
    have hne : later ≠ [] := fun hnil => hnot (hfirst.mp hnil)
    obtain ⟨marked, rest, rfl⟩ := List.exists_cons_of_ne_nil hne
    have hall : marked :: rest = OwnerReference.controllers (app.ownerReferences.getD []) :=
      hlater.eq_of_length_le (by simp at hone ⊢; omega)
    have hrest : rest = [] := by
      rw [← hall] at hone
      simpa using hone
    subst hrest
    exact ⟨marked, hall.symm, hcontrollers⟩

/-- The owner is listed twice, and controls the App through the first of the two. -/
theorem controlOfRecord_controllers_listed :
    ∃ (install : PackageInstall) (app : App) (pod marked second ref : OwnerReference),
      app.ownerReferences = some [pod, marked, second] ∧ second.Coreferent marked ∧
      OwnerReference.controllers [pod, marked, second] = [marked] ∧
      controlOfRecord (some ⟨.packageInstall, install⟩) (some ⟨.app, app⟩) .standard =
        .ok [pod, ref, second] ∧
      OwnerReference.controllers [pod, ref, second] = [ref] := by
  let install : PackageInstall := { name := .str "web", ns := .str "apps", uid := .str "u-1" }
  let pod : OwnerReference := { apiVersion := "v1", kind := "Pod", name := .str "web" }
  let second : OwnerReference :=
    { apiVersion := "packaging.carvel.dev/v1alpha1", kind := "PackageInstall", name := .str "web" }
  let marked : OwnerReference :=
    { second with apiVersion := "packaging.carvel.dev/v1", controller := some true }
  let ref : OwnerReference := .controlling
    (.ofApiVersion "packaging.carvel.dev/v1alpha1" "PackageInstall") (.str "web") (.str "u-1")
  let app : App := { name := .str "web", ns := .str "apps",
                     ownerReferences := some [pod, marked, second] }
  have h : controlOfRecord (some ⟨.packageInstall, install⟩) (some ⟨.app, app⟩) .standard =
      .ok [pod, ref, second] := toOption_eq_some.mp (by decide +kernel)
  obtain ⟨g, name, uid, hg, hname, huid, hsingle, -⟩ :=
    controlOfRecord_controllers (by decide) h
  obtain rfl : .ofApiVersion "packaging.carvel.dev/v1alpha1" "PackageInstall" = g :=
    Except.ok.inj hg
  obtain rfl : .str "web" = name := Except.ok.inj hname
  obtain rfl : .str "u-1" = uid := Except.ok.inj huid
  exact ⟨install, app, pod, marked, second, ref, rfl, by decide +kernel, by decide, h,
    hsingle.mpr (by decide +kernel)⟩

/-- **An App may come to have two controllers.** It had one, and no other owner than the one that
is given control. -/
theorem controlOfRecord_two_controllers :
    ∃ (install : PackageInstall) (app : App) (first marked ref : OwnerReference),
      app.ownerReferences = some [first, marked] ∧ first.Coreferent marked ∧
      OwnerReference.controllers [first, marked] = [marked] ∧
      controlOfRecord (some ⟨.packageInstall, install⟩) (some ⟨.app, app⟩) .standard =
        .ok [ref, marked] ∧
      OwnerReference.controllers [ref, marked] = [ref, marked] := by
  let install : PackageInstall := { name := .str "web", ns := .str "apps", uid := .str "u-1" }
  let first : OwnerReference :=
    { apiVersion := "packaging.carvel.dev/v1", kind := "PackageInstall", name := .str "web"
      uid := .str "u-1" }
  let marked : OwnerReference :=
    { first with apiVersion := "packaging.carvel.dev/v1alpha1", controller := some true }
  let ref : OwnerReference := .controlling
    (.ofApiVersion "packaging.carvel.dev/v1alpha1" "PackageInstall") (.str "web") (.str "u-1")
  let app : App := { name := .str "web", ns := .str "apps",
                     ownerReferences := some [first, marked] }
  exact ⟨install, app, first, marked, ref, rfl, by decide +kernel, by decide,
    toOption_eq_some.mp (by decide +kernel), by decide +kernel⟩

end AppSynthesis
