/-
AppSynthesis.Proofs.Synthesis.Recognised — the annotations of an install that make a
difference.

* `Annotations.Recognised` — the keys that the synthesis looks for, and
  `Annotations.Agree`, that two sets of annotations say the same under these.
* `InstallInputs.of_congr`, `injectFetchSecrets_congr`, `desiredSpec_congr` — what is
  made of annotations that agree is the same.
* `Annotations.not_recognised_point`, `Annotations.not_recognised_fetchSecret` — a key
  that ends with the point and the index of a step that does not exist are not looked
  for.
* `newApp_agree` — so the App depends on these annotations only, and not on their
  order.

That no key is taken for another is a matter of the keys as text: those with a suffix
are told apart by `suffix?`, and the ones for fetch steps differ from all others in the
first letter of their name.
-/
import AppSynthesis.Proofs.Annotations.Suffix
import AppSynthesis.Proofs.Synthesis.App

namespace AppSynthesis

namespace Annotations

/-! ## Keys that are looked for -/

/-- The keys that the synthesis of an App with a number of fetch steps looks for. -/
inductive Recognised (steps : Nat) : String → Prop
  | helmName : Recognised steps helmName
  | helmNamespace : Recognised steps helmNamespace
  | valuesAreOverlays : Recognised steps valuesAreOverlays
  | yttPaths (suffix : String) : Recognised steps (withSuffix yttPathsSecret suffix)
  | helmValues (suffix : String) : Recognised steps (withSuffix helmValuesSecret suffix)
  | fetch (i : Nat) : i < steps → Recognised steps (fetchSecret i)

/-- Two sets of annotations say the same under the keys that are looked for. What
stands under the mark of overlays does not count, only that it is there. -/
structure Agree (steps : Nat) (a b : Annotations) : Prop where
  helmName : a.get? helmName = b.get? helmName
  helmNamespace : a.get? helmNamespace = b.get? helmNamespace
  overlays : (a.get? valuesAreOverlays).isSome = (b.get? valuesAreOverlays).isSome
  yttPaths : ∀ suffix, a.get? (withSuffix yttPathsSecret suffix) =
    b.get? (withSuffix yttPathsSecret suffix)
  helmValues : ∀ suffix, a.get? (withSuffix helmValuesSecret suffix) =
    b.get? (withSuffix helmValuesSecret suffix)
  fetch : ∀ i < steps, a.get? (fetchSecret i) = b.get? (fetchSecret i)

variable {steps : Nat} {a b extra : Annotations}

theorem Agree.of_recognised (h : ∀ key, Recognised steps key → a.get? key = b.get? key) :
    Agree steps a b where
  helmName := h _ .helmName
  helmNamespace := h _ .helmNamespace
  overlays := congrArg Option.isSome (h _ .valuesAreOverlays)
  yttPaths suffix := h _ (.yttPaths suffix)
  helmValues suffix := h _ (.helmValues suffix)
  fetch i hi := h _ (.fetch i hi)

/-- Annotations agree with themselves in another order and among others that are not
looked for. -/
theorem Agree.of_perm (hb : b.Unique) (hextra : ∀ e ∈ extra, ¬Recognised steps e.1)
    (h : b.Perm (a ++ extra)) : Agree steps a b := by
  refine .of_recognised fun key hkey => ?_
  rw [TextMap.get?_perm hb h key, TextMap.get?_append_other]
  rintro e he rfl
  exact hextra e he hkey

/-! ## Keys that are not looked for -/

/-- The keys for fetch steps differ from the others in this letter. -/
theorem getElem?_fetchSecret (i : Nat) : (fetchSecret i).toList[25]? = some 'f' := by
  have hstart : "ext.packaging.carvel.dev/fetch-".toList[25]? = some 'f' := by decide
  have hlength : 25 < "ext.packaging.carvel.dev/fetch-".toList.length := by decide
  unfold fetchSecret fetchSecretKey
  rw [String.toList_append, String.toList_append, List.append_assoc,
    List.getElem?_append_left hlength, hstart]

theorem getElem?_withSuffix {base : String} (h : 25 < base.toList.length) (suffix : String) :
    (withSuffix base suffix).toList[25]? = base.toList[25]? := by
  rw [toList_withSuffix, List.getElem?_append_left h]

theorem fetchSecret_inj {i j : Nat} : fetchSecret i = fetchSecret j ↔ i = j := by
  refine ⟨fun h => Numeral.ofNat_inj.mp ?_, fun h => h ▸ rfl⟩
  unfold fetchSecret fetchSecretKey at h
  have htext := congrArg String.toList h
  simp only [String.toList_append, List.append_assoc, List.append_cancel_left_eq,
    List.append_cancel_right_eq] at htext
  exact String.toList_inj.mp htext

/-- A key with another letter in that place is looked for only if it is one of the
others. -/
theorem not_recognised_of {key : String} (hfetch : key.toList[25]? ≠ some 'f')
    (hname : key ≠ Annotations.helmName) (hns : key ≠ Annotations.helmNamespace)
    (hoverlays : key ≠ Annotations.valuesAreOverlays)
    (hytt : suffix? key yttPathsSecret = none) (hhelm : suffix? key helmValuesSecret = none) :
    ¬Recognised steps key := by
  intro h
  cases h with
  | helmName => exact hname rfl
  | helmNamespace => exact hns rfl
  | valuesAreOverlays => exact hoverlays rfl
  | yttPaths suffix => exact nomatch hytt.symm.trans (suffix?_eq_some_iff.mpr rfl)
  | helmValues suffix => exact nomatch hhelm.symm.trans (suffix?_eq_some_iff.mpr rfl)
  | fetch i hi => exact hfetch (getElem?_fetchSecret i)

/-- A key that ends with the point is not looked for. -/
theorem not_recognised_point {base : String} (h : base = yttPathsSecret ∨ base = helmValuesSecret) :
    ¬Recognised steps (base ++ ".") := by
  rcases h with rfl | rfl <;>
    exact not_recognised_of (by decide +kernel) (by decide +kernel) (by decide +kernel)
      (by decide +kernel) (by decide +kernel) (by decide +kernel)

/-- Nor is the key for a fetch step that does not exist. -/
theorem not_recognised_fetchSecret {i : Nat} (h : steps ≤ i) :
    ¬Recognised steps (fetchSecret i) := by
  have hletter := getElem?_fetchSecret i
  intro hr
  generalize hkey : fetchSecret i = key at hr hletter
  cases hr with
  | helmName => exact absurd hletter (by decide +kernel)
  | helmNamespace => exact absurd hletter (by decide +kernel)
  | valuesAreOverlays => exact absurd hletter (by decide +kernel)
  | yttPaths suffix =>
    rw [getElem?_withSuffix (by decide +kernel)] at hletter
    exact absurd hletter (by decide +kernel)
  | helmValues suffix =>
    rw [getElem?_withSuffix (by decide +kernel)] at hletter
    exact absurd hletter (by decide +kernel)
  | fetch j hj => exact absurd hj (Nat.not_lt.mpr (fetchSecret_inj.mp hkey ▸ h))

end Annotations

/-! ## What is made of annotations -/

section

variable {steps : Nat} {a b : Annotations}

theorem InstallInputs.of_congr (ha : a.Unique) (hb : b.Unique) (h : a.Agree steps b)
    (spec : InstallSpec) : InstallInputs.of a spec = InstallInputs.of b spec := by
  unfold InstallInputs.of
  rw [h.helmName, h.helmNamespace, h.overlays, Annotations.ordered_congr ha hb h.yttPaths,
    Annotations.ordered_congr ha hb h.helmValues]

theorem injectFetchSecrets_congr {fetch : List Fetch.Step} (h : a.Agree fetch.length b) :
    injectFetchSecrets a fetch = injectFetchSecrets b fetch := by
  refine List.mapIdx_eq_mapIdx_iff.mpr fun i hi => ?_
  unfold injectFetchSecret Annotations.fetchSecret?
  rw [h.fetch i hi]

/-- The number of fetch steps of the template of a package. -/
def Package.fetchSteps (package : Package) : Nat := (package.template.fetch.getD []).length

variable {install : PackageInstall} {package : Package} {options : Options}

theorem desiredSpec_congr (ha : a.Unique) (hb : b.Unique) (h : a.Agree package.fetchSteps b)
    (v : Value) :
    desiredSpec install a package options =
      desiredSpec { install with annotations := v } b package options := by
  have hfetch : package.template.fetch.map (injectFetchSecrets a) =
      package.template.fetch.map (injectFetchSecrets b) := by
    unfold Package.fetchSteps at h
    rcases hsteps : package.template.fetch with _ | fetch <;> rw [hsteps] at h
    · rfl
    · exact congrArg some (injectFetchSecrets_congr h)
  unfold desiredSpec
  simp only [controlledSpec, InstallInputs.of_congr ha hb h, hfetch]

/-- What the synthesis makes of an install is settled by what it makes of its
annotations. -/
theorem newApp_congr {v : Value} (hinstall : Annotations.ofValue install.annotations = .ok a)
    (hv : Annotations.ofValue v = .ok b)
    (h : desiredSpec install a package options =
      desiredSpec { install with annotations := v } b package options) (existing : Option App) :
    newApp existing install package options =
      newApp existing { install with annotations := v } package options := by
  unfold newApp
  simp only [hinstall, hv, PackageInstall.owner, h, bind, Except.bind]

end

/-- **Only the annotations that are looked for matter, and only as a map.** When the
annotations of an install are exchanged for others that agree with them, the synthesis
comes to the same App or the same error. Others agree, for example, when they are the same
in another order among further ones that are not looked for; a key that ends with the
point and the index of a fetch step that does not exist are not looked for. -/
theorem newApp_agree {install : PackageInstall} {package : Package} {a : Annotations}
    (hinstall : Annotations.ofValue install.annotations = .ok a) (ha : a.Unique)
    {v : Value} {b : Annotations} (hv : Annotations.ofValue v = .ok b) (hb : b.Unique)
    (existing : Option App) (options : Options) :
    (a.Agree package.fetchSteps b →
      newApp existing install package options =
        newApp existing { install with annotations := v } package options) ∧
    (∀ extra : Annotations, (∀ e ∈ extra, ¬Annotations.Recognised package.fetchSteps e.1) →
      b.Perm (a ++ extra) →
        newApp existing install package options =
          newApp existing { install with annotations := v } package options) ∧
    (∀ base, base = Annotations.yttPathsSecret ∨ base = Annotations.helmValuesSecret →
      ¬Annotations.Recognised package.fetchSteps (base ++ ".")) ∧
    (∀ i, package.fetchSteps ≤ i →
      ¬Annotations.Recognised package.fetchSteps (Annotations.fetchSecret i)) := by
  have hagree : a.Agree package.fetchSteps b →
      newApp existing install package options =
        newApp existing { install with annotations := v } package options :=
    fun h => newApp_congr hinstall hv (desiredSpec_congr ha hb h v) existing
  exact ⟨hagree, fun extra hextra hperm => hagree (.of_perm hb hextra hperm),
    fun base => Annotations.not_recognised_point, fun i => Annotations.not_recognised_fetchSecret⟩

/-- Two files for ytt in the other order, beside a key that ends with the point and the
secret of a step that does not exist. -/
theorem newApp_agree_reordered :
    ∃ (install : PackageInstall) (package : Package) (v : Value) (a b : Annotations),
      Annotations.ofValue install.annotations = .ok a ∧ Annotations.ofValue v = .ok b ∧
      a.Unique ∧ b.Unique ∧ a.length = 2 ∧ b.length = 4 ∧
      (newApp none install package {}).isOk = true ∧
      newApp none install package {} =
        newApp none { install with annotations := v } package {} := by
  let first : Value × Value := (.str (Annotations.yttPathsSecret ++ ".1"), .str "one")
  let second : Value × Value := (.str (Annotations.yttPathsSecret ++ ".2"), .str "two")
  let install : PackageInstall :=
    { name := .str "web", ns := .str "apps", annotations := .map none [first, second] }
  let package : Package :=
    { name := .str "p", ns := .str "apps", refName := .str "p.example.com", version := "1.0.0"
      template := { fetch := some [{ image := some { url := some "registry/web" } }]
                    template := some [{ ytt := some {} }] } }
  let a : Annotations := [(Annotations.yttPathsSecret ++ ".1", .str "one"),
    (Annotations.yttPathsSecret ++ ".2", .str "two")]
  let extra : Annotations := [(Annotations.yttPathsSecret ++ ".", .str "none"),
    (Annotations.fetchSecret 1, .str "none")]
  let b : Annotations := a.reverse ++ extra
  let v : Value := .map none (b.map fun e => (.str e.1, e.2))
  have ha : Annotations.ofValue install.annotations = .ok a := rfl
  have hb : Annotations.ofValue v = .ok b := rfl
  have hua : a.Unique := by decide
  have hub : b.Unique := by decide +kernel
  have hperm : b.Perm (a ++ extra) := (List.reverse_perm a).append_right extra
  have hextra : ∀ e ∈ extra, ¬Annotations.Recognised package.fetchSteps e.1 := by
    intro e he
    rcases List.mem_cons.mp he with rfl | he
    · exact Annotations.not_recognised_point (Or.inl rfl)
    · exact List.mem_singleton.mp he ▸ Annotations.not_recognised_fetchSecret (by decide)
  exact ⟨install, package, v, a, b, ha, hb, hua, hub, rfl, rfl, by decide +kernel,
    (newApp_agree ha hua hb hub none {}).2.1 extra hextra hperm⟩

end AppSynthesis
