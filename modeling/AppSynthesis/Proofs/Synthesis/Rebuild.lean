/-
AppSynthesis.Proofs.Synthesis.Rebuild — the synthesis does not depend on what
was built before.

* `Rebuild` — the inputs of one synthesis besides the App; `Rebuild.apply` is
  that synthesis.
* `rebuild` — the App after any number of rebuilds, each from the App of the
  last one that succeeded.
* `Rebuild.OneOwner` — rebuilds for one install: its name is the same in all of
  them, and so are group and kind of installs wherever they are known.
* `Rebuild.apply_apply` — a rebuild after one other comes to what it would have
  come to at once.
* `apply_rebuild` — hence so does the last of any number of rebuilds, in success
  and in failure.

One step is the whole argument. What the first rebuild wrote is replaced by the
second (name, namespace, the recorded package, the specification) or was put
where the second puts it: the recorded package is written under keys that are
there by then (`recordedEntries_recordedEntries`), and the reference to the owner
is found by what the first rebuild left in its place (`App.claim_claimed`).
-/
import AppSynthesis.Proofs.Synthesis.App

namespace AppSynthesis

/-! ## Rebuilds -/

/-- The inputs of the synthesis besides the App. -/
structure Rebuild where
  install : PackageInstall
  package : Package
  options : Options := {}

/-- The synthesis from the App that exists. -/
def Rebuild.apply (r : Rebuild) (existing : Option App) : Except Error App :=
  newApp existing r.install r.package r.options

/-- The App after rebuilds, each from the App of the last one that succeeded. -/
def rebuild (existing : Option App) : List Rebuild → Option App
  | [] => existing
  | r :: rest =>
    match r.apply existing with
    | .ok a => rebuild (some a) rest
    | .error _ => rebuild existing rest

/-- The group and kind of installs, as far as the scheme knows them. -/
def Rebuild.kind? (r : Rebuild) : Option GroupVersionKind :=
  r.options.scheme.kindOf? .packageInstall

/-- Two rebuilds for one install. -/
structure Rebuild.OneOwner (r r' : Rebuild) : Prop where
  name : r.install.name = r'.install.name
  kind : ∀ g g', r.kind? = some g → r'.kind? = some g' → g.group = g'.group ∧ g.kind = g'.kind

namespace Rebuild

variable {r r' : Rebuild}

/-- The references of two rebuilds for one install are to the same owner. -/
theorem OneOwner.sameOwner (h : r.OneOwner r') (hr : r.options.scheme.Registered)
    (hr' : r'.options.scheme.Registered)
    (hself : r'.install.name.same r'.install.name = true) {g g' : GroupVersionKind}
    (hg : r.kind? = some g) (hg' : r'.kind? = some g') :
    (OwnerReference.controlling g r.install.name r.install.uid).SameOwner
      (.controlling g' r'.install.name r'.install.uid) := by
  obtain ⟨hgroup, hkind⟩ := h.kind g g' hg hg'
  refine .of_eq ?_ hkind h.name hself
  rw [hr.group_controlling hg, hr'.group_controlling hg', hgroup]

/-- The owner references of a rebuild are those that it would have made of the
App before the other. -/
theorem controlOf_again
    (hsame : ∀ g g', r.kind? = some g → r'.kind? = some g' →
      (OwnerReference.controlling g r.install.name r.install.uid).SameOwner
        (.controlling g' r'.install.name r'.install.uid))
    {x y z : App} {refs : List OwnerReference}
    (hx : r.install.owner.controlOf x r.options.scheme = .ok refs)
    (hy : y.ownerReferences = some refs) (hz : z.ownerReferences = x.ownerReferences)
    (hns : y.ns = z.ns) :
    r'.install.owner.controlOf y r'.options.scheme =
      r'.install.owner.controlOf z r'.options.scheme := by
  obtain ⟨g, hg, _, hclaim⟩ := Owner.controlOf_eq_ok.mp hx
  unfold Owner.controlOf Scheme.kindOf
  rcases hg' : r'.options.scheme.kindOf? r'.install.owner.type with _ | g'
  · rfl
  · simp only [bind, Except.bind, hns]
    rcases checkNamespaces r'.install.owner.ns z.ns with e | u
    · rfl
    · exact App.claim_claimed (hsame g g' hg hg') rfl hclaim hy hz

/-- **A rebuild after another comes to what it would have come to at once.** -/
theorem apply_apply
    (hsame : ∀ g g', r.kind? = some g → r'.kind? = some g' →
      (OwnerReference.controlling g r.install.name r.install.uid).SameOwner
        (.controlling g' r'.install.name r'.install.uid))
    {existing : Option App} {a : App} (ha : r.apply existing = .ok a) :
    r'.apply (some a) = r'.apply existing := by
  unfold apply at ha ⊢
  rcases newApp_cases ha with ⟨hmanual, rfl⟩ | ⟨entries, refs, _, hcarries, hrefs, _, heq⟩
  · have hagain : isManuallyControlled ((some (existing.getD {})).getD {}).annotations =
        .ok true := hmanual
    rw [newApp_of_manual hmanual, newApp_of_manual hagain, Option.getD_some]
  · have hagain : ((some a).getD {}).Carries (recordedEntries entries r.package) :=
      hcarries.recorded (by rw [heq]; rfl)
    have hcontrol := controlOf_again hsame hrefs
      (y := a.named r'.install (recordedEntries entries r.package) r'.package)
      (z := (existing.getD {}).named r'.install entries r'.package)
      (by rw [heq]; rfl) rfl rfl
    have hnamed : ∀ refs spec,
        { a.named r'.install (recordedEntries entries r.package) r'.package with
          ownerReferences := some refs, spec := spec } =
        { (existing.getD {}).named r'.install entries r'.package with
          ownerReferences := some refs, spec := spec } := by
      intro refs spec
      rw [heq]
      simp only [App.named, recordPackage_eq, recordedEntries_recordedEntries]
    rw [newApp_of_carries hagain, newApp_of_carries hcarries]
    simp only [Option.getD_some, hcontrol, hnamed]

/-- A rebuild from the same inputs changes nothing. -/
theorem apply_again (hself : r.install.name.same r.install.name = true) {existing : Option App}
    {a : App} (ha : r.apply existing = .ok a) : r.apply (some a) = .ok a := by
  refine (apply_apply (fun g g' hg hg' => ?_) ha).trans ha
  obtain rfl := Option.some.inj (hg.symm.trans hg')
  exact .of_eq rfl rfl rfl hself

/-- Nor does it when the App was given another version in the meantime. -/
theorem apply_withVersion (hself : r.install.name.same r.install.name = true)
    {existing : Option App} {a : App} (ha : r.apply existing = .ok a) (version : Value) :
    r.apply (some (a.withVersion version)) = .ok (a.withVersion version) := by
  have hagain := apply_again hself ha
  unfold apply at hagain ⊢
  rw [newApp_withVersion, hagain]
  rfl

end Rebuild

/-! ## Any number of rebuilds -/

/-- **The synthesis does not depend on what was built before.** After any rebuilds
for one install, of any packages and with any options, the last comes to what
it would have come to from the first App on, in success and in failure. So a
rebuild from the same inputs changes nothing. -/
theorem apply_rebuild {steps : List Rebuild} {last : Rebuild}
    (hself : last.install.name.same last.install.name = true)
    (howner : ∀ r ∈ steps ++ [last], ∀ r' ∈ steps ++ [last], r.OneOwner r')
    (hscheme : ∀ r ∈ steps ++ [last], r.options.scheme.Registered) (existing : Option App) :
    last.apply (rebuild existing steps) = last.apply existing ∧
      ∀ a, last.apply existing = .ok a → last.apply (some a) = .ok a := by
  have hlast : last ∈ steps ++ [last] := List.mem_append_right _ (List.mem_singleton.mpr rfl)
  -- Each rebuild may be left out before the last, from the first one on.
  have hskip : ∀ (rest : List Rebuild) (e : Option App), rest ⊆ steps ++ [last] →
      last.apply (rebuild e rest) = last.apply e := by
    intro rest
    induction rest with
    | nil => exact fun e _ => rfl
    | cons r rest ih =>
      intro e hrest
      have hr : r ∈ steps ++ [last] := hrest List.mem_cons_self
      have htail : rest ⊆ steps ++ [last] := fun x hx => hrest (List.mem_cons_of_mem r hx)
      rw [rebuild]
      rcases ha : r.apply e with err | a
      · exact ih e htail
      · calc last.apply (rebuild (some a) rest)
          _ = last.apply (some a) := ih (some a) htail
          _ = last.apply e := Rebuild.apply_apply
                (fun _ _ => (howner r hr last hlast).sameOwner (hscheme r hr)
                  (hscheme last hlast) hself) ha
  exact ⟨hskip steps existing (List.subset_append_left _ _), fun a => Rebuild.apply_again hself⟩

/-- An install is upgraded after it was built from an older version and after a
rebuild that failed, of an App that belongs to another owner as well. -/
theorem apply_rebuild_upgrade :
    ∃ (first failed last : Rebuild) (existing : App),
      (first.apply (some existing)).isOk = true ∧ (failed.apply (some existing)).isOk = false ∧
      last.apply (rebuild (some existing) [first, failed]) = last.apply (some existing) ∧
      ∀ a, last.apply (some existing) = .ok a → last.apply (some a) = .ok a := by
  let web : PackageInstall := { name := .str "web", ns := .str "apps" }
  let package (version : String) : Package :=
    { name := .str "p", ns := .str "apps", refName := .str "p.example.com", version }
  let existing : App :=
    { annotations := .map none [(.str Annotations.packageVersion, .str "0"), (.str "a", .str "b")]
      ownerReferences := some [{ apiVersion := "v1", kind := "Pod", name := .str "web" }] }
  let first : Rebuild := { install := web, package := package "1.0.0" }
  let failed : Rebuild :=
    { install := web, package := package "1.1.0", options := { scheme := {} } }
  let last : Rebuild := { install := web, package := package "2.0.0" }
  have hkinds : ∀ r ∈ [first, failed] ++ [last], r.kind? = none ∨
      r.kind? = some ⟨"packaging.carvel.dev", "v1alpha1", "PackageInstall"⟩ := by decide +kernel
  have howner : ∀ r ∈ [first, failed] ++ [last], ∀ r' ∈ [first, failed] ++ [last],
      r.OneOwner r' := by
    intro r hr r' hr'
    refine ⟨?_, fun g g' hg hg' => ?_⟩
    · have hname : ∀ x ∈ [first, failed] ++ [last], x.install.name = .str "web" := by decide
      rw [hname r hr, hname r' hr']
    · rcases hkinds r hr with h | h <;> rcases hkinds r' hr' with h' | h' <;>
        rw [h] at hg <;> rw [h'] at hg' <;> cases hg <;> cases hg'
      exact ⟨rfl, rfl⟩
  have hscheme : ∀ r ∈ [first, failed] ++ [last], r.options.scheme.Registered := by
    intro r hr
    rcases List.mem_cons.mp hr with rfl | hr
    · exact .standard
    · rcases List.mem_cons.mp hr with rfl | hr
      · exact .empty
      · exact List.mem_singleton.mp hr ▸ .standard
  exact ⟨first, failed, last, existing, by decide +kernel, by decide +kernel,
    apply_rebuild (by decide) howner hscheme (some existing)⟩

end AppSynthesis
