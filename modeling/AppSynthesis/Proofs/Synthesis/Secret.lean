/-
AppSynthesis.Proofs.Synthesis.Secret — which secret each fetch step has.

* `Fetch.Step.Active` — the active source of a step: the first kind that the step names.
* `Fetch.Step.Secured` — what becomes of a step that a secret is named for, one case for each
  kind that its active source may be of.
* `Fetch.Source.bare` — a source but for its secret.
* `Annotations.NamesSecret` — annotations name a secret for the step with an index.
* `injectFetchSecrets_secured` — each step has the secret that is named for its index, and an
  annotation makes a difference to one step at most.

Two functions look at the kind of a source, the one that finds the active source of a step and
the one that puts a source back in its place. That they agree on the kinds is what
`Fetch.Step.secured_withSecret` comes down to: the record that is put together there differs
from the step in the field that the source was found in.
-/
import AppSynthesis.Proofs.Synthesis.Recognised

namespace AppSynthesis

namespace Fetch

/-! ## Active sources -/

/-- The active source of a step: the first kind that the step names, in this order. -/
inductive Step.Active (step : Step) : Source → Prop
  | inline {x : Inline} : step.inline = some x → Active step (.inline x)
  | image {x : Image} : step.inline = none → step.image = some x → Active step (.image x)
  | http {x : Http} : step.inline = none → step.image = none → step.http = some x →
      Active step (.http x)
  | git {x : Git} : step.inline = none → step.image = none → step.http = none →
      step.git = some x → Active step (.git x)
  | helmChart {x : HelmChart} : step.inline = none → step.image = none → step.http = none →
      step.git = none → step.helmChart = some x → Active step (.helmChart x)
  | imgpkgBundle {x : Bundle} : step.inline = none → step.image = none → step.http = none →
      step.git = none → step.helmChart = none → step.imgpkgBundle = some x →
      Active step (.imgpkgBundle x)

/-- A source but for its secret; that of a chart is in its repository. -/
def Source.bare : Source → Source
  | .inline x => .inline x
  | .image x => .image { x with secretRef := none }
  | .http x => .http { x with secretRef := none }
  | .git x => .git { x with secretRef := none }
  | .helmChart x =>
    .helmChart { x with repository := x.repository.map fun r => { r with secretRef := none } }
  | .imgpkgBundle x => .imgpkgBundle { x with secretRef := none }

namespace Step

variable {step out : Step} {source : Source} {secret : Value}

theorem active_iff : step.Active source ↔ step.source? = some source := by
  unfold source?
  simp only [Option.orElse_eq_orElse, Option.orElse_eq_or, Option.or_eq_some_iff,
    Option.map_eq_some_iff, Option.map_eq_none_iff]
  constructor
  · intro h
    cases h <;> simp_all
  · rintro (⟨x, hx, rfl⟩ | ⟨hinline, ⟨x, hx, rfl⟩ | ⟨himage, ⟨x, hx, rfl⟩ | ⟨hhttp, ⟨x, hx, rfl⟩ |
      ⟨hgit, ⟨x, hx, rfl⟩ | ⟨hchart, x, hx, rfl⟩⟩⟩⟩⟩)
    · exact .inline hx
    · exact .image hinline hx
    · exact .http hinline himage hx
    · exact .git hinline himage hhttp hx
    · exact .helmChart hinline himage hhttp hgit hx
    · exact .imgpkgBundle hinline himage hhttp hgit hchart hx

/-! ## Steps with a secret -/

/-- What becomes of a step that a secret is named for. The secret of its active source is set,
and all else stays as it is. -/
inductive Secured (secret : Value) (step : Step) : Step → Prop
  | sourceless : (∀ source, ¬step.Active source) → Secured secret step step
  | inline {x : Inline} : step.Active (.inline x) → Secured secret step step
  | image {x : Image} : step.Active (.image x) →
      Secured secret step { step with image := some { x with secretRef := some ⟨secret⟩ } }
  | http {x : Http} : step.Active (.http x) →
      Secured secret step { step with http := some { x with secretRef := some ⟨secret⟩ } }
  | git {x : Git} : step.Active (.git x) →
      Secured secret step { step with git := some { x with secretRef := some ⟨secret⟩ } }
  | helmChart {x : HelmChart} {r : Repository} : step.Active (.helmChart x) →
      x.repository = some r → Secured secret step
        { step with
          helmChart := some { x with repository := some { r with secretRef := some ⟨secret⟩ } } }
  | chartOnly {x : HelmChart} : step.Active (.helmChart x) → x.repository = none →
      Secured secret step step
  | imgpkgBundle {x : Bundle} : step.Active (.imgpkgBundle x) →
      Secured secret step
        { step with imgpkgBundle := some { x with secretRef := some ⟨secret⟩ } }

theorem withSecret_of_active (h : step.Active source) :
    step.withSecret secret = ((source.withSecret secret).map step.withSource).getD step := by
  unfold withSecret
  rw [active_iff.mp h, Option.bind_some]
  cases source.withSecret secret <;> rfl

theorem secured_withSecret (step : Step) (secret : Value) :
    step.Secured secret (step.withSecret secret) := by
  rcases hsource : step.source? with _ | source
  · have hnone : step.withSecret secret = step := by simp [withSecret, hsource]
    rw [hnone]
    exact .sourceless fun source h => by simp [active_iff.mp h] at hsource
  · have h : step.Active source := active_iff.mpr hsource
    rw [withSecret_of_active h]
    cases source with
    | inline x => exact .inline h
    | image x => exact .image h
    | http x => exact .http h
    | git x => exact .git h
    | helmChart x =>
      rcases hrepository : x.repository with _ | r
      · simpa [Source.withSecret, hrepository] using Secured.chartOnly h hrepository
      · simpa [Source.withSecret, withSource, hrepository] using Secured.helmChart h hrepository
    | imgpkgBundle x => exact .imgpkgBundle h

/-- A secret leaves a step with an active source of the same kind, which is what it was but for
its secret. -/
theorem Secured.bare (h : step.Secured secret out) (hactive : step.Active source) :
    ∃ source', out.Active source' ∧ source'.bare = source.bare := by
  -- The active source of a step is one.
  have honly : ∀ {source'}, step.Active source' → source' = source := fun h' =>
    Option.some.inj ((active_iff.mp h').symm.trans (active_iff.mp hactive))
  cases h with
  | sourceless _ => exact ⟨source, hactive, rfl⟩
  | inline _ => exact ⟨source, hactive, rfl⟩
  | chartOnly _ _ => exact ⟨source, hactive, rfl⟩
  | image h =>
    obtain rfl := honly h
    cases h with
    | image hinline hx => exact ⟨_, .image hinline rfl, rfl⟩
  | http h =>
    obtain rfl := honly h
    cases h with
    | http hinline himage hx => exact ⟨_, .http hinline himage rfl, rfl⟩
  | git h =>
    obtain rfl := honly h
    cases h with
    | git hinline himage hhttp hx => exact ⟨_, .git hinline himage hhttp rfl, rfl⟩
  | helmChart h hr =>
    obtain rfl := honly h
    cases h with
    | helmChart hinline himage hhttp hgit hx =>
      exact ⟨_, .helmChart hinline himage hhttp hgit rfl, by simp [Source.bare, hr]⟩
  | imgpkgBundle h =>
    obtain rfl := honly h
    cases h with
    | imgpkgBundle hinline himage hhttp hgit hchart hx =>
      exact ⟨_, .imgpkgBundle hinline himage hhttp hgit hchart rfl, rfl⟩

end Step

end Fetch

/-! ## Secrets that are named -/

/-- Annotations name a secret for the fetch step with an index: it is there, under the index in
decimal, and it is not null. -/
def Annotations.NamesSecret (annotations : Annotations) (i : Nat) (secret : Value) : Prop :=
  annotations.get? ("ext.packaging.carvel.dev/fetch-" ++ toString i ++ "-secret-name") =
    some secret ∧ secret ≠ .null

variable {annotations other : Annotations} {steps : List Fetch.Step}

theorem Annotations.fetchSecret?_eq_some_iff {i : Nat} {secret : Value} :
    annotations.fetchSecret? i = some secret ↔ annotations.NamesSecret i secret := by
  have hkey : Annotations.fetchSecret i =
      "ext.packaging.carvel.dev/fetch-" ++ toString i ++ "-secret-name" := rfl
  unfold fetchSecret? NamesSecret
  rw [hkey]
  rcases annotations.get? _ with _ | v
  · simp
  · cases v <;> simp
    all_goals
      rintro rfl
      simp

theorem getElem?_injectFetchSecrets (i : Nat) :
    (injectFetchSecrets annotations steps)[i]? =
      steps[i]?.map (injectFetchSecret annotations i) := by
  simp [injectFetchSecrets]

/-- A step whose annotation is the same has the same secret. -/
theorem injectFetchSecrets_of_get? {i : Nat}
    (h : annotations.get? (Annotations.fetchSecret i) = other.get? (Annotations.fetchSecret i)) :
    (injectFetchSecrets annotations steps)[i]? = (injectFetchSecrets other steps)[i]? := by
  have hstep : injectFetchSecret annotations i = injectFetchSecret other i := by
    funext step
    simp [injectFetchSecret, Annotations.fetchSecret?, h]
  rw [getElem?_injectFetchSecrets, getElem?_injectFetchSecrets, hstep]

/-- **Which secret each fetch step has.** There are as many steps as before. Each is as it was,
unless a secret is named for its index; then its active source has this secret, and nothing else
of the step has changed. An active source keeps its kind and all but its secret. Annotations that
differ in what is under a single key come to the same steps but for one. -/
theorem injectFetchSecrets_secured (annotations : Annotations) (steps : List Fetch.Step) :
    (injectFetchSecrets annotations steps).length = steps.length ∧
    (∀ (i : Nat) (step : Fetch.Step), steps[i]? = some step →
      ∃ out, (injectFetchSecrets annotations steps)[i]? = some out ∧
        ((∀ secret, ¬annotations.NamesSecret i secret) → out = step) ∧
        (∀ secret, annotations.NamesSecret i secret → step.Secured secret out) ∧
        ∀ source, step.Active source → ∃ source', out.Active source' ∧
          source'.bare = source.bare) ∧
    (∀ (other : Annotations) (key : String),
      (∀ key', key' ≠ key → annotations.get? key' = other.get? key') →
      ∀ i j : Nat,
        (injectFetchSecrets annotations steps)[i]? ≠ (injectFetchSecrets other steps)[i]? →
        (injectFetchSecrets annotations steps)[j]? ≠ (injectFetchSecrets other steps)[j]? →
        i = j) := by
  refine ⟨by simp [injectFetchSecrets], fun i step hstep => ?_, fun other key hkeys i j hi hj => ?_⟩
  · rw [getElem?_injectFetchSecrets, hstep]
    refine ⟨_, rfl, ?_⟩
    unfold injectFetchSecret
    simp only [← Annotations.fetchSecret?_eq_some_iff]
    rcases annotations.fetchSecret? i with _ | secret
    · exact ⟨fun _ => rfl, by simp, fun source hactive => ⟨source, hactive, rfl⟩⟩
    · have hsecured := step.secured_withSecret secret
      refine ⟨fun hnone => absurd rfl (hnone secret), ?_, fun source => hsecured.bare⟩
      rintro _ ⟨⟩
      exact hsecured
  · -- A step for which it makes a difference is the one that the key is for.
    have hkey : ∀ i,
        (injectFetchSecrets annotations steps)[i]? ≠ (injectFetchSecrets other steps)[i]? →
        Annotations.fetchSecret i = key := by
      intro i hi
      refine Decidable.byContradiction fun hne => hi ?_
      exact injectFetchSecrets_of_get? (hkeys _ hne)
    exact Annotations.fetchSecret_inj.mp ((hkey i hi).trans (hkey j hj).symm)

/-- A chart with another secret comes before a bundle in one step; the secrets for two other steps
are null and out of range. -/
theorem injectFetchSecrets_secured_chart :
    ∃ (annotations : Annotations) (steps : List Fetch.Step) (step out : Fetch.Step)
      (repository : Fetch.Repository),
      repository = { url := some "charts", secretRef := some ⟨.str "new"⟩ } ∧
      annotations.length = 3 ∧ steps.length = 2 ∧ steps[1]? = some step ∧
      step.imgpkgBundle.isSome = true ∧ annotations.NamesSecret 1 (.str "new") ∧
      (injectFetchSecrets annotations steps)[1]? = some out ∧ step.Secured (.str "new") out ∧
      out = { step with helmChart := some { name := some "web", repository := some repository } } ∧
      (injectFetchSecrets annotations steps)[0]? = steps[0]? := by
  let annotations : Annotations :=
    [(Annotations.fetchSecret 0, .null), (Annotations.fetchSecret 1, .str "new"),
      (Annotations.fetchSecret 10, .str "none")]
  let old : Fetch.Repository := { url := some "charts", secretRef := some ⟨.str "old"⟩ }
  let step : Fetch.Step :=
    { helmChart := some { name := some "web", repository := some old }, imgpkgBundle := some {} }
  let steps : List Fetch.Step := [{ image := some {} }, step]
  have hnames : annotations.NamesSecret 1 (.str "new") := ⟨by decide +kernel, by simp⟩
  have hnone : ∀ secret, ¬annotations.NamesSecret 0 secret := by
    rintro secret ⟨hget, hne⟩
    have hnull : annotations.get? (Annotations.fetchSecret 0) = some .null := by decide +kernel
    exact hne (Option.some.inj (hget.symm.trans hnull))
  have hsecured := (injectFetchSecrets_secured annotations steps).2.1
  obtain ⟨out, hout, -, hnew, -⟩ := hsecured 1 step rfl
  obtain ⟨first, hfirst, hsame, -⟩ := hsecured 0 { image := some {} } rfl
  exact ⟨annotations, steps, step, out, { old with secretRef := some ⟨.str "new"⟩ }, rfl, rfl, rfl,
    rfl, rfl, hnames, hout, hnew _ hnames, Option.some.inj (hout.symm.trans (by decide +kernel)),
    hfirst.trans (congrArg some (hsame hnone))⟩

end AppSynthesis
