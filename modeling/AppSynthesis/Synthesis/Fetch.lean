/-
AppSynthesis.Synthesis.Fetch — secrets for fetch steps.

* `Fetch.Step.withSecret` — the active source of a step takes a secret;
  for a helm chart its repository does. Inline content and a chart without
  a repository take none.
* `injectFetchSecrets` — each step takes the secret that the annotation
  with its index names.
-/
import AppSynthesis.Annotations

namespace AppSynthesis

/-- The source with its secret set, if it has a place for one. -/
def Fetch.Source.withSecret (secret : Value) : Fetch.Source → Option Fetch.Source
  | .inline _ => none
  | .image x => some (.image { x with secretRef := some ⟨secret⟩ })
  | .http x => some (.http { x with secretRef := some ⟨secret⟩ })
  | .git x => some (.git { x with secretRef := some ⟨secret⟩ })
  | .helmChart x =>
    x.repository.map fun r =>
      .helmChart { x with repository := some { r with secretRef := some ⟨secret⟩ } }
  | .imgpkgBundle x => some (.imgpkgBundle { x with secretRef := some ⟨secret⟩ })

/-- The step with the secret of its active source set. -/
def Fetch.Step.withSecret (step : Fetch.Step) (secret : Value) : Fetch.Step :=
  match step.source?.bind (Fetch.Source.withSecret secret) with
  | some source => step.withSource source
  | none => step

/-- The secret that annotations name for the fetch step with an index;
null names none. -/
def Annotations.fetchSecret? (annotations : Annotations) (i : Nat) : Option Value :=
  match annotations.get? (Annotations.fetchSecret i) with
  | none => none
  | some .null => none
  | some secret => some secret

/-- A fetch step with the secret that annotations name for its index. -/
def injectFetchSecret (annotations : Annotations) (i : Nat) (step : Fetch.Step) : Fetch.Step :=
  match annotations.fetchSecret? i with
  | none => step
  | some secret => step.withSecret secret

/-- Fetch steps with the secrets that annotations name. -/
def injectFetchSecrets (annotations : Annotations) (steps : List Fetch.Step) :
    List Fetch.Step :=
  steps.mapIdx fun i step => injectFetchSecret annotations i step

end AppSynthesis
