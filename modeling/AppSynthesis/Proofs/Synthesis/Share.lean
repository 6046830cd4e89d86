/-
AppSynthesis.Proofs.Synthesis.Share — what each template step gets, told from the steps before
it.

* `Template.Helm.share`, `Template.Ytt.share`, `Template.Step.share` — the share of an engine
  and of a step, as a function of the step and of the list of steps before it.
* `Applied.after` — what a list of steps has taken.
* `injectTemplate_after` — a step after others gets its share, and what has been taken then is
  what it and the others take.
* `injectTemplates_after` — so each of the steps gets its share.
* `InstallInputs.ReadFrom` — where what is shared comes from.

The synthesis walks the steps with two flags, which both engines read and write, and gives files
to ytt in two goes. What the flags say is a matter of which engines there were before
(`Applied.after`), and two goes come to the same as one (`Template.Ytt.withFiles_withFiles`);
the rest is the order within a step, where helm comes first.
-/
import AppSynthesis.Synthesis.App
import AppSynthesis.Proofs.Annotations.Suffix

namespace AppSynthesis

/-! ## Shares -/

namespace Template

/-- A step with an engine that takes values. -/
def Step.hasEngine (step : Step) : Bool := step.helmTemplate.isSome || step.ytt.isSome

/-- A helm engine with its share. All have the release name and namespace, the first engine of
all has the values as well: its own, and then those from annotations and the declared ones, each
as a secret by its name. -/
def Helm.share (inputs : InstallInputs) (first : Bool) (helm : Helm) : Helm :=
  let secrets := if first then inputs.helmValues ++ inputs.declared else []
  { helm with
    name := if inputs.helmName = .null then helm.name else inputs.helmName
    ns := if inputs.helmNamespace = .null then helm.ns else inputs.helmNamespace
    valuesFrom :=
      if secrets.isEmpty then helm.valuesFrom
      else some (helm.valuesFrom.getD [] ++
        secrets.map fun name => { secretRef := some { name } }) }

/-- A ytt engine with its share. The first ytt has the secrets with files, and the first engine
of all the declared values, among the inline files if they are overlays and otherwise among the
values. Both come after its own, each as a secret by its name. -/
def Ytt.share (inputs : InstallInputs) (firstYtt first : Bool) (ytt : Ytt) : Ytt :=
  let paths := if firstYtt then inputs.yttPaths else []
  let overlays := if first && inputs.overlays then inputs.declared else []
  let files := paths ++ overlays
  let values := if first && !inputs.overlays then inputs.declared else []
  let inline := ytt.inline.getD {}
  { ytt with
    inline :=
      if paths.isEmpty && !(first && inputs.overlays) then ytt.inline
      else some { inline with
        pathsFrom :=
          if files.isEmpty then inline.pathsFrom
          else some (inline.pathsFrom.getD [] ++
            files.map fun name => { secretRef := some { name } }) }
    valuesFrom :=
      if values.isEmpty then ytt.valuesFrom
      else some (ytt.valuesFrom.getD [] ++
        values.map fun name => { secretRef := some { name } }) }

/-- A step with its share, after the steps in `before`. -/
def Step.share (inputs : InstallInputs) (before : List Step) (step : Step) : Step :=
  let first := !before.any Step.hasEngine
  let firstYtt := !before.any fun s => s.ytt.isSome
  { step with
    helmTemplate := step.helmTemplate.map (Helm.share inputs first)
    ytt := step.ytt.map (Ytt.share inputs firstYtt (first && step.helmTemplate.isNone)) }

end Template

/-- Where the contribution of an install comes from. -/
structure InstallInputs.ReadFrom (inputs : InstallInputs) (annotations : Annotations)
    (spec : InstallSpec) : Prop where
  helmName : ∀ v, v ≠ .null →
    (inputs.helmName = v ↔ (Annotations.helmName, v) ∈ annotations)
  helmNamespace : ∀ v, v ≠ .null →
    (inputs.helmNamespace = v ↔ (Annotations.helmNamespace, v) ∈ annotations)
  helmValues : annotations.SuffixOrder Annotations.helmValuesSecret inputs.helmValues
  yttPaths : annotations.SuffixOrder Annotations.yttPathsSecret inputs.yttPaths
  /-- One for each declared value with a secret, in their order. -/
  declared : inputs.declared =
    ((spec.values.getD []).filterMap InstallValues.secretRef).map fun r => .str r.name
  /-- The annotation counts whatever its value is. -/
  overlays : inputs.overlays = true ↔ ∃ v, (Annotations.valuesAreOverlays, v) ∈ annotations

theorem InstallInputs.of_readFrom {annotations : Annotations} (h : annotations.Unique)
    (spec : InstallSpec) : (InstallInputs.of annotations spec).ReadFrom annotations spec := by
  have hread (key : String) (v : Value) (hv : v ≠ .null) :
      (annotations.get? key).getD .null = v ↔ (key, v) ∈ annotations := by
    rw [← TextMap.get?_eq_some_iff h]
    rcases annotations.get? key with _ | w <;> simp [Ne.symm hv]
  constructor
  · exact hread _
  · exact hread _
  · exact Annotations.ordered_suffixOrder h
  · exact Annotations.ordered_suffixOrder h
  · exact List.map_filterMap.symm
  · show (annotations.get? _).isSome = true ↔ _
    rw [Option.isSome_iff_exists]
    exact exists_congr fun v => TextMap.get?_eq_some_iff h

/-! ## One engine -/

variable {inputs : InstallInputs}

theorem extend_extend {α : Type} (existing : Option (List α)) (a b : List α) :
    extend (extend existing a) b = extend existing (a ++ b) := by
  rcases a with _ | ⟨x, a⟩
  · rfl
  · rcases b with _ | ⟨y, b⟩ <;> simp [extend]

/-- Files that are given in two goes come to the same as files given at once. -/
theorem Template.Ytt.withFiles_withFiles (ytt : Template.Ytt) (a b : List Value) :
    (ytt.withFiles a).withFiles b = ytt.withFiles (a ++ b) := by
  simp [withFiles, extend_extend, fileSources]

/-- Secrets after the values that an engine has of its own. -/
theorem extend_valuesSources (own : Option (List Template.ValuesSource)) (secrets : List Value) :
    extend own (valuesSources secrets) =
      if secrets.isEmpty then own
      else some (own.getD [] ++ secrets.map fun name => { secretRef := some { name } }) := by
  simp [extend, valuesSources]

/-- Secrets after the inline files that an engine has of its own. -/
theorem extend_fileSources (own : Option (List Fetch.InlineSource)) (secrets : List Value) :
    extend own (fileSources secrets) =
      if secrets.isEmpty then own
      else some (own.getD [] ++ secrets.map fun name => { secretRef := some { name } }) := by
  simp [extend, fileSources]

theorem injectHelm_eq (applied : Applied) (helm : Template.Helm) :
    injectHelm inputs applied helm =
      (helm.share inputs (!applied.values), { applied with values := true }) := by
  rcases applied with ⟨values, yttPaths⟩
  simp only [injectHelm, extend_valuesSources]
  cases values <;> rfl

theorem injectYttPaths_eq (applied : Applied) (ytt : Template.Ytt) :
    injectYttPaths inputs applied ytt =
      let paths := if applied.yttPaths then [] else inputs.yttPaths
      if paths = [] then ytt else ytt.withFiles paths := by
  unfold injectYttPaths
  cases applied.yttPaths <;> simp

theorem injectYtt_eq (applied : Applied) (ytt : Template.Ytt) :
    injectYtt inputs applied ytt =
      (ytt.share inputs (!applied.yttPaths) (!applied.values),
        { values := true, yttPaths := true }) := by
  have hpaths : (if !applied.yttPaths then inputs.yttPaths else []) =
      if applied.yttPaths then [] else inputs.yttPaths := by
    cases applied.yttPaths <;> rfl
  unfold injectYtt injectYttValues Template.Ytt.share
  simp only [← extend_valuesSources, ← extend_fileSources]
  rw [injectYttPaths_eq, hpaths]
  generalize (if applied.yttPaths then [] else inputs.yttPaths) = paths
  have hnone : extend ytt.valuesFrom (valuesSources []) = ytt.valuesFrom := rfl
  by_cases hempty : paths = []
  · -- There is nothing for ytt from annotations.
    cases applied.values <;> cases inputs.overlays <;>
      simp [hempty, hnone, Template.Ytt.withFiles]
  · -- There is, and inline files are the place for it.
    cases applied.values <;> cases inputs.overlays <;>
      simp [hempty, hnone, Template.Ytt.withFiles_withFiles]
    all_goals simp [Template.Ytt.withFiles]

/-! ## One step -/

/-- What a list of steps has taken: an engine takes the values, a ytt takes the files. -/
def Applied.after (before : List Template.Step) : Applied where
  values := before.any Template.Step.hasEngine
  yttPaths := before.any fun step => step.ytt.isSome

/-- A step after others gets its share and takes what it can. -/
theorem injectTemplate_after (before : List Template.Step) (step : Template.Step) :
    injectTemplate inputs (.after before) step =
      (step.share inputs before, .after (before ++ [step])) := by
  rcases step with ⟨ytt, helmTemplate, kbld, sops, cue⟩
  unfold injectTemplate Template.Step.share Applied.after
  rcases helmTemplate with _ | helm <;> rcases ytt with _ | ytt <;>
    simp [injectHelm_eq, injectYtt_eq, Template.Step.hasEngine]

/-! ## All steps -/

/-- Each step gets the share that the steps before it leave it. -/
theorem injectTemplates_after (inputs : InstallInputs) (before steps : List Template.Step)
    (k : Nat) : (injectTemplates inputs (.after before) steps)[k]? =
      steps[k]?.map (Template.Step.share inputs (before ++ steps.take k)) := by
  induction steps generalizing before k with
  | nil => rfl
  | cons step rest ih =>
    rw [injectTemplates, injectTemplate_after]
    cases k with
    | zero => simp
    | succ k => simp [ih, List.append_assoc]

theorem length_injectTemplates (applied : Applied) (steps : List Template.Step) :
    (injectTemplates inputs applied steps).length = steps.length := by
  induction steps generalizing applied with
  | nil => rfl
  | cons step rest ih => exact congrArg Nat.succ (ih _)

/-- **What each template step gets.** There are as many steps as before. Each has its share,
which is told from the step itself, the steps before it and what the install contributes; and
that is read off the annotations and the declared values of the install. -/
theorem injectTemplates_eq_share {annotations : Annotations} (h : annotations.Unique)
    (spec : InstallSpec) (steps : List Template.Step) :
    (injectTemplates (.of annotations spec) {} steps).length = steps.length ∧
    (∀ k (step : Template.Step), steps[k]? = some step →
      (injectTemplates (.of annotations spec) {} steps)[k]? =
        some (step.share (.of annotations spec) (steps.take k))) ∧
    (InstallInputs.of annotations spec).ReadFrom annotations spec := by
  refine ⟨length_injectTemplates _ _, fun k step hstep => ?_, InstallInputs.of_readFrom h spec⟩
  have hshare := injectTemplates_after (.of annotations spec) [] steps k
  rw [hstep, List.nil_append] at hshare
  exact hshare

/-- Helm takes the values of a step with both engines, in the order of the suffixes and the
declared one twice, and ytt the files, each of them after its own; a later helm has the release
name alone. -/
theorem injectTemplates_eq_share_mixed :
    ∃ (annotations : Annotations) (spec : InstallSpec) (steps : List Template.Step),
      annotations.Unique ∧
      steps = [{ kbld := some [] },
        { helmTemplate := some
            { valuesFrom := some [{ configMapRef := some { name := .str "own" } }] }
          ytt := some
            { inline := some
                { pathsFrom := some [{ configMapRef := some { name := .str "files" } }] } } },
        { helmTemplate := some { name := .str "old" } }] ∧
      (injectTemplates (.of annotations spec) {} steps)[1]? = some
        { helmTemplate := some
            { name := .str "new"
              valuesFrom := some [{ configMapRef := some { name := .str "own" } },
                { secretRef := some { name := .str "h" } },
                { secretRef := some { name := .str "h-a" } },
                { secretRef := some { name := .str "v" } },
                { secretRef := some { name := .str "v" } }] }
          ytt := some
            { inline := some
                { pathsFrom := some [{ configMapRef := some { name := .str "files" } },
                    { secretRef := some { name := .str "y" } }] } } } ∧
      (injectTemplates (.of annotations spec) {} steps)[2]? = some
        { helmTemplate := some { name := .str "new" } } := by
  let annotations : Annotations := [(Annotations.helmValuesSecret ++ ".a", .str "h-a"),
    (Annotations.helmName, .str "new"), (Annotations.helmValuesSecret, .str "h"),
    (Annotations.yttPathsSecret, .str "y")]
  let spec : InstallSpec :=
    { values := some [{ secretRef := some ⟨"v", none⟩ }, {}, { secretRef := some ⟨"v", none⟩ }] }
  have hunique : annotations.Unique := by decide +kernel
  have hsecrets : Annotations.ordered annotations Annotations.helmValuesSecret =
      [.str "h", .str "h-a"] := by
    have hsuffixes : Annotations.bySuffix annotations Annotations.helmValuesSecret =
        [("a", .str "h-a"), ("", .str "h")] := by decide +kernel
    simp [Annotations.ordered, hsuffixes, List.mergeSort]
  have hfiles : Annotations.ordered annotations Annotations.yttPathsSecret = [.str "y"] := by
    have hsuffixes : Annotations.bySuffix annotations Annotations.yttPathsSecret =
        [("", .str "y")] := by decide +kernel
    simp [Annotations.ordered, hsuffixes]
  have hinputs : InstallInputs.of annotations spec =
      { helmName := .str "new", helmNamespace := .null, helmValues := [.str "h", .str "h-a"]
        yttPaths := [.str "y"], declared := [.str "v", .str "v"], overlays := false } := by
    rw [InstallInputs.of, hsecrets, hfiles]
    decide +kernel
  have hshare (steps : List Template.Step) := (injectTemplates_eq_share hunique spec steps).2.1
  exact ⟨annotations, spec, _, hunique, rfl, (hshare _ 1 _ rfl).trans (hinputs ▸ rfl),
    (hshare _ 2 _ rfl).trans (hinputs ▸ rfl)⟩

end AppSynthesis
