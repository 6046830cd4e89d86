/-
AppSynthesis.Proofs.Synthesis.Inherited — what an App inherits from the parts that it is
made of.

For a property that records take from their parts (`Codec.Inherited`):

* `InstallInputs.Have` — what an install contributes has it; `InstallInputs.have_of`, this
  is so when the values of its annotations have.
* `Fetch.Step.withSecret_inherits`, `injectTemplates_inherits` — steps with their secrets and
  values have it if they had it before.
* `desiredSpec_inherits`, `controlOf_inherits` — so have the specification and the owner
  references of the App that is made.

The synthesis puts together parts of resources and names from annotations. Each lemma
takes a record apart into its fields, puts one of them in place of another, and puts the
record together again; what the property says does not matter.
-/
import AppSynthesis.Proofs.Schema.Fields
import AppSynthesis.Proofs.Synthesis.Secret

namespace AppSynthesis

/-! ## Names from annotations -/

namespace Annotations

theorem mem_of_textEntries? {entries : Entries} {annotations : Annotations}
    (h : textEntries? entries = some annotations) :
    ∀ e ∈ annotations, (.str e.1, e.2) ∈ entries := by
  intro e he
  obtain ⟨⟨k, v⟩, hmem, hread⟩ := exists_mem_of_mapM h e he
  cases k <;> cases hread
  exact hmem

variable {annotations : Annotations} {Q : Value → Prop}

theorem of_get? (h : ∀ e ∈ annotations, Q e.2) {key : String} {v : Value}
    (hv : annotations.get? key = some v) : Q v := by
  obtain ⟨e, he, rfl⟩ := Option.map_eq_some_iff.mp hv
  exact h e (List.mem_of_find?_eq_some he)

theorem of_mem_ordered (h : ∀ e ∈ annotations, Q e.2) {base : String} :
    ∀ v ∈ ordered annotations base, Q v := by
  intro v hv
  obtain ⟨e, he, rfl⟩ := List.mem_map.mp hv
  obtain ⟨e', he', heq⟩ := List.mem_filterMap.mp (List.mem_mergeSort.mp he)
  obtain ⟨s, _, rfl⟩ := Option.map_eq_some_iff.mp heq
  exact h e' he'

end Annotations

variable {P : Codec.Property}

/-- What an install contributes has a property. -/
structure InstallInputs.Have (P : Codec.Property) (inputs : InstallInputs) : Prop where
  helmName : inputs.helmName ≠ .null → P _ .anyText inputs.helmName
  helmNamespace : inputs.helmNamespace ≠ .null → P _ .anyText inputs.helmNamespace
  helmValues : ∀ v ∈ inputs.helmValues, P _ .anyText v
  yttPaths : ∀ v ∈ inputs.yttPaths, P _ .anyText v
  declared : ∀ v ∈ inputs.declared, P _ .anyText v

section

variable (hP : Codec.Inherited P)

include hP

theorem InstallInputs.have_of {annotations : Annotations}
    (h : ∀ e ∈ annotations, P _ .anyText e.2) (spec : InstallSpec) :
    (InstallInputs.of annotations spec).Have P := by
  have hget : ∀ key, (annotations.get? key).getD .null ≠ .null →
      P _ .anyText ((annotations.get? key).getD .null) := by
    intro key hne
    rcases hv : annotations.get? key with _ | v
    · rw [hv] at hne
      exact absurd rfl hne
    · exact Annotations.of_get? (Q := P _ .anyText) h hv
  refine ⟨hget _, hget _, Annotations.of_mem_ordered h, Annotations.of_mem_ordered h, ?_⟩
  intro v hv
  obtain ⟨value, _, hvalue⟩ := List.mem_filterMap.mp hv
  obtain ⟨r, _, rfl⟩ := Option.map_eq_some_iff.mp hvalue
  exact hP.anyText r.name

end

/-! ## Fetch steps -/

namespace Fetch

/-- A source has a property. -/
def Source.Has (P : Codec.Property) : Source → Prop
  | .inline x => P _ Inline.schema.codec x
  | .image x => P _ Image.schema.codec x
  | .http x => P _ Http.schema.codec x
  | .git x => P _ Git.schema.codec x
  | .helmChart x => P _ HelmChart.schema.codec x
  | .imgpkgBundle x => P _ Bundle.schema.codec x

section

variable (hP : Codec.Inherited P)

include hP

theorem objectRef_inherits {secret : Value} (h : P _ .anyText secret) :
    ∀ ref ∈ some (ObjectRef.mk secret), P _ ObjectRef.schema.codec ref := by
  intro ref href
  obtain rfl := Option.mem_some.mp href
  exact (hP.record .objectRef).mpr ⟨h, trivial⟩

theorem Source.Has.withSecret {secret : Value} (hsecret : P _ .anyText secret)
    {source source' : Source} (h : source.Has P)
    (hsource : Source.withSecret secret source = some source') : source'.Has P := by
  have href := objectRef_inherits hP hsecret
  cases source with
  | inline x => cases hsource
  | image x =>
    obtain rfl := Option.some.inj hsource
    obtain ⟨hurl, _, hrest⟩ := (hP.record .image).mp h
    exact (hP.record .image).mpr ⟨hurl, href, hrest⟩
  | http x =>
    obtain rfl := Option.some.inj hsource
    obtain ⟨hurl, hsha, _, hrest⟩ := (hP.record .http).mp h
    exact (hP.record .http).mpr ⟨hurl, hsha, href, hrest⟩
  | git x =>
    obtain rfl := Option.some.inj hsource
    obtain ⟨hurl, hgit, hselection, _, hrest⟩ := (hP.record .git).mp h
    exact (hP.record .git).mpr ⟨hurl, hgit, hselection, href, hrest⟩
  | helmChart x =>
    obtain ⟨r, hr, rfl⟩ := Option.map_eq_some_iff.mp hsource
    obtain ⟨hname, hversion, hrepository, hrest⟩ := (hP.record .helmChart).mp h
    obtain ⟨hurl, _, hdone⟩ := (hP.record .repository).mp (hrepository r hr)
    refine (hP.record .helmChart).mpr ⟨hname, hversion, fun y hy => ?_, hrest⟩
    obtain rfl := Option.mem_some.mp hy
    exact (hP.record .repository).mpr ⟨hurl, href, hdone⟩
  | imgpkgBundle x =>
    obtain rfl := Option.some.inj hsource
    obtain ⟨himage, _, hrest⟩ := (hP.record .bundle).mp h
    exact (hP.record .bundle).mpr ⟨himage, href, hrest⟩

namespace Step

variable {step : Step}

theorem source?_inherits (h : P _ Step.schema.codec step) {source : Source}
    (hsource : step.source? = some source) : source.Has P := by
  obtain ⟨hinline, himage, hhttp, hgit, hchart, hbundle, _⟩ := (hP.record .fetchStep).mp h
  cases active_iff.mpr hsource with
  | inline hx => exact hinline _ hx
  | image _ hx => exact himage _ hx
  | http _ _ hx => exact hhttp _ hx
  | git _ _ _ hx => exact hgit _ hx
  | helmChart _ _ _ _ hx => exact hchart _ hx
  | imgpkgBundle _ _ _ _ _ hx => exact hbundle _ hx

theorem withSource_inherits (h : P _ Step.schema.codec step) {source : Source}
    (hsource : source.Has P) : P _ Step.schema.codec (step.withSource source) := by
  obtain ⟨hinline, himage, hhttp, hgit, hchart, hbundle, hpath⟩ := (hP.record .fetchStep).mp h
  refine (hP.record .fetchStep).mpr ?_
  cases source with
  | inline x =>
    exact ⟨fun y hy => Option.mem_some.mp hy ▸ hsource, himage, hhttp, hgit, hchart, hbundle,
      hpath⟩
  | image x =>
    exact ⟨hinline, fun y hy => Option.mem_some.mp hy ▸ hsource, hhttp, hgit, hchart, hbundle,
      hpath⟩
  | http x =>
    exact ⟨hinline, himage, fun y hy => Option.mem_some.mp hy ▸ hsource, hgit, hchart, hbundle,
      hpath⟩
  | git x =>
    exact ⟨hinline, himage, hhttp, fun y hy => Option.mem_some.mp hy ▸ hsource, hchart, hbundle,
      hpath⟩
  | helmChart x =>
    exact ⟨hinline, himage, hhttp, hgit, fun y hy => Option.mem_some.mp hy ▸ hsource, hbundle,
      hpath⟩
  | imgpkgBundle x =>
    exact ⟨hinline, himage, hhttp, hgit, hchart, fun y hy => Option.mem_some.mp hy ▸ hsource,
      hpath⟩

/-- A step has with a secret what it had before. -/
theorem withSecret_inherits (h : P _ Step.schema.codec step) {secret : Value}
    (hsecret : P _ .anyText secret) : P _ Step.schema.codec (step.withSecret secret) := by
  unfold withSecret
  split
  · rename_i source hsource
    obtain ⟨before, hbefore, hsource⟩ := Option.bind_eq_some_iff.mp hsource
    exact withSource_inherits hP h ((source?_inherits hP h hbefore).withSecret hP hsecret hsource)
  · exact h

end Step

end

end Fetch

section

variable (hP : Codec.Inherited P)

include hP

/-- So it is with the secrets that annotations name. -/
theorem injectFetchSecrets_inherits {annotations : Annotations}
    (h : ∀ e ∈ annotations, P _ .anyText e.2) {steps : List Fetch.Step}
    (hsteps : ∀ step ∈ steps, P _ Fetch.Step.schema.codec step) :
    ∀ step ∈ injectFetchSecrets annotations steps, P _ Fetch.Step.schema.codec step := by
  intro step hstep
  obtain ⟨i, hi, rfl⟩ := List.mem_mapIdx.mp hstep
  have hbefore := hsteps _ (List.getElem_mem hi)
  unfold injectFetchSecret Annotations.fetchSecret?
  split
  · exact hbefore
  · rename_i secret hsecret
    have hget : annotations.get? (Annotations.fetchSecret i) = some secret := by
      split at hsecret
      · cases hsecret
      · cases hsecret
      · rename_i hget
        exact hget.trans hsecret
    exact Fetch.Step.withSecret_inherits hP hbefore
      (Annotations.of_get? (Q := P _ .anyText) h hget)

end

/-! ## Template steps -/

/-- What holds of the items of a list that may be absent holds after more were added. -/
theorem forall_mem_extend {α : Type} {Q : α → Prop} {existing : Option (List α)} {more : List α}
    (h : ∀ xs ∈ existing, ∀ x ∈ xs, Q x) (hmore : ∀ x ∈ more, Q x) :
    ∀ xs ∈ extend existing more, ∀ x ∈ xs, Q x := by
  intro xs hxs
  unfold extend at hxs
  split at hxs
  · exact h xs hxs
  · obtain rfl := Option.mem_some.mp hxs
    intro x hx
    rcases List.mem_append.mp hx with hx | hx
    · rcases hexisting : existing with _ | ys
      · rw [hexisting] at hx
        exact absurd hx List.not_mem_nil
      · rw [hexisting] at hx
        exact h ys hexisting x hx
    · exact hmore x hx

theorem Value.override_inherits {old new : Value} (hold : old ≠ .null → P _ .anyText old)
    (hnew : new ≠ .null → P _ .anyText new) :
    old.override new ≠ .null → P _ .anyText (old.override new) := by
  unfold Value.override
  split
  · exact hold
  · exact hnew

section

variable (hP : Codec.Inherited P)

include hP

/-- A list that may be absent has what its items have, also after more were added. -/
theorem extend_inherits {α : Type} {codec : Codec α} {existing : Option (List α)} {more : List α}
    (h : ∀ xs ∈ existing, P _ (.list codec) xs) (hmore : ∀ x ∈ more, P _ codec x) :
    ∀ xs ∈ extend existing more, P _ (.list codec) xs := fun xs hxs =>
  hP.list.mpr (forall_mem_extend (fun ys hys => hP.list.mp (h ys hys)) hmore xs hxs)

theorem valuesSources_inherits {secrets : List Value} (h : ∀ v ∈ secrets, P _ .anyText v) :
    ∀ x ∈ valuesSources secrets, P _ Template.ValuesSource.schema.codec x := by
  intro x hx
  obtain ⟨v, hv, rfl⟩ := List.mem_map.mp hx
  refine (hP.record .valuesSource).mpr ⟨fun ref href => ?_, nofun, nofun, nofun, trivial⟩
  obtain rfl := Option.mem_some.mp href
  exact (hP.record .valuesRef).mpr ⟨h v hv, trivial⟩

theorem fileSources_inherits {secrets : List Value} (h : ∀ v ∈ secrets, P _ .anyText v) :
    ∀ x ∈ fileSources secrets, P _ Fetch.InlineSource.schema.codec x := by
  intro x hx
  obtain ⟨v, hv, rfl⟩ := List.mem_map.mp hx
  refine (hP.record .inlineSource).mpr ⟨fun ref href => ?_, nofun, trivial⟩
  obtain rfl := Option.mem_some.mp href
  exact (hP.record .filesRef).mpr ⟨h v hv, nofun, trivial⟩

/-- An engine has with more files what it had before. -/
theorem Template.Ytt.withFiles_inherits {ytt : Template.Ytt}
    (hytt : P _ Template.Ytt.schema.codec ytt) {secrets : List Value}
    (hsecrets : ∀ v ∈ secrets, P _ .anyText v) :
    P _ Template.Ytt.schema.codec (ytt.withFiles secrets) := by
  obtain ⟨hcomments, hstrict, hinline, hrest⟩ := (hP.record .ytt).mp hytt
  have hbefore : P _ Fetch.Inline.schema.codec (ytt.inline.getD {}) := by
    rcases h : ytt.inline with _ | inline
    · exact (hP.record .inline).mpr ⟨nofun, nofun, trivial⟩
    · exact hinline inline h
  obtain ⟨hpaths, hfrom, hdone⟩ := (hP.record .inline).mp hbefore
  refine (hP.record .ytt).mpr ⟨hcomments, hstrict, fun x hx => ?_, hrest⟩
  obtain rfl := Option.mem_some.mp hx
  exact (hP.record .inline).mpr
    ⟨hpaths, extend_inherits hP hfrom (fileSources_inherits hP hsecrets), hdone⟩

variable {inputs : InstallInputs} (h : inputs.Have P) (applied : Applied)

include h

theorem injectHelm_inherits {helm : Template.Helm} (hhelm : P _ Template.Helm.schema.codec helm) :
    P _ Template.Helm.schema.codec (injectHelm inputs applied helm).1 := by
  obtain ⟨hname, hns, hpath, hvalues, hrest⟩ := (hP.record .helm).mp hhelm
  have hname := Value.override_inherits hname h.helmName
  have hns := Value.override_inherits hns h.helmNamespace
  unfold injectHelm
  dsimp only
  split
  · exact (hP.record .helm).mpr ⟨hname, hns, hpath, hvalues, hrest⟩
  · refine (hP.record .helm).mpr ⟨hname, hns, hpath,
      extend_inherits hP hvalues (valuesSources_inherits hP fun v hv => ?_), hrest⟩
    rcases List.mem_append.mp hv with hv | hv
    · exact h.helmValues v hv
    · exact h.declared v hv

theorem injectYtt_inherits {ytt : Template.Ytt} (hytt : P _ Template.Ytt.schema.codec ytt) :
    P _ Template.Ytt.schema.codec (injectYtt inputs applied ytt).1 := by
  have hpaths : P _ Template.Ytt.schema.codec (injectYttPaths inputs applied ytt) := by
    unfold injectYttPaths
    split
    · exact hytt
    · exact Template.Ytt.withFiles_inherits hP hytt h.yttPaths
  show P _ Template.Ytt.schema.codec
    (injectYttValues inputs applied (injectYttPaths inputs applied ytt))
  unfold injectYttValues
  split
  · exact hpaths
  · split
    · exact Template.Ytt.withFiles_inherits hP hpaths h.declared
    · obtain ⟨hcomments, hstrict, hinline, hfiles, hmarks, hvalues, hdone⟩ :=
        (hP.record .ytt).mp hpaths
      exact (hP.record .ytt).mpr ⟨hcomments, hstrict, hinline, hfiles, hmarks,
        extend_inherits hP hvalues (valuesSources_inherits hP h.declared), hdone⟩

theorem injectTemplate_inherits {step : Template.Step}
    (hstep : P _ Template.Step.schema.codec step) :
    P _ Template.Step.schema.codec (injectTemplate inputs applied step).1 := by
  obtain ⟨hytt, hhelm, hrest⟩ := (hP.record .templateStep).mp hstep
  unfold injectTemplate
  rcases hstepHelm : step.helmTemplate with _ | helm <;> rcases hstepYtt : step.ytt with _ | ytt
  · exact (hP.record .templateStep).mpr ⟨nofun, nofun, hrest⟩
  · refine (hP.record .templateStep).mpr ⟨fun x hx => ?_, nofun, hrest⟩
    exact Option.mem_some.mp hx ▸ injectYtt_inherits hP h _ (hytt ytt hstepYtt)
  · refine (hP.record .templateStep).mpr ⟨nofun, fun x hx => ?_, hrest⟩
    exact Option.mem_some.mp hx ▸ injectHelm_inherits hP h _ (hhelm helm hstepHelm)
  · refine (hP.record .templateStep).mpr ⟨fun x hx => ?_, fun x hx => ?_, hrest⟩
    · exact Option.mem_some.mp hx ▸ injectYtt_inherits hP h _ (hytt ytt hstepYtt)
    · exact Option.mem_some.mp hx ▸ injectHelm_inherits hP h _ (hhelm helm hstepHelm)

/-- Template steps have with their shares what they had before. -/
theorem injectTemplates_inherits (steps : List Template.Step)
    (hsteps : ∀ step ∈ steps, P _ Template.Step.schema.codec step) :
    ∀ step ∈ injectTemplates inputs applied steps, P _ Template.Step.schema.codec step := by
  induction steps generalizing applied with
  | nil => exact fun step hstep => absurd hstep List.not_mem_nil
  | cons first rest ih =>
    intro step hstep
    rcases List.mem_cons.mp hstep with rfl | hstep
    · exact injectTemplate_inherits hP h applied (hsteps first List.mem_cons_self)
    · exact ih _ (fun x hx => hsteps x (List.mem_cons_of_mem _ hx)) step hstep

end

/-! ## The specification and the owners -/

/-- The steps of a specification have a property. -/
structure AppSpec.StepsHave (P : Codec.Property) (spec : AppSpec) : Prop where
  fetch : ∀ steps ∈ spec.fetch, P _ (.list Fetch.Step.schema.codec) steps
  template : ∀ steps ∈ spec.template, P _ (.list Template.Step.schema.codec) steps
  deploy : ∀ steps ∈ spec.deploy, P _ (.list .valueMap) steps

section

variable (hP : Codec.Inherited P)

include hP

/-- The specification of an App has what the steps of the template have and what the install
contributes. The controls of the template do not count. -/
theorem desiredSpec_inherits {install : PackageInstall} {annotations : Annotations}
    {package : Package} {options : Options}
    (hannotations : ∀ e ∈ annotations, P _ .anyText e.2)
    (hsteps : package.template.StepsHave P)
    (hcluster : ∀ c ∈ install.spec.cluster, P _ Cluster.schema.codec c)
    (hperiod : ∀ d ∈ (install.spec.syncPeriod <|> options.defaultSyncPeriod), P _ .duration d) :
    P _ AppSpec.schema.codec (desiredSpec install annotations package options) := by
  have hinputs := InstallInputs.have_of hP hannotations install.spec
  refine (hP.record .appSpec).mpr ⟨fun xs hxs => ?_, fun xs hxs => ?_, hsteps.deploy,
    fun s _ => hP.text s, hperiod, fun b _ => hP.flag b, fun b _ => hP.flag b,
    fun b _ => hP.flag b, hcluster, fun s _ => hP.text s, trivial⟩
  · obtain ⟨steps, hfetch, rfl⟩ := Option.map_eq_some_iff.mp hxs
    exact hP.list.mpr
      (injectFetchSecrets_inherits hP hannotations (hP.list.mp (hsteps.fetch steps hfetch)))
  · obtain ⟨steps, htemplate, rfl⟩ := Option.map_eq_some_iff.mp hxs
    exact hP.list.mpr
      (injectTemplates_inherits hP hinputs {} steps (hP.list.mp (hsteps.template steps htemplate)))

/-- The references of an App under the control of an install have what those had before and
what the name of the install has. -/
theorem controlOf_inherits {install : PackageInstall} {app : App} {scheme : Scheme}
    {refs : List OwnerReference} (hname : P _ .anyText install.name)
    (huid : P _ .anyText install.uid)
    (happ : ∀ refs ∈ app.ownerReferences, P _ (.list OwnerReference.schema.codec) refs)
    (h : install.owner.controlOf app scheme = .ok refs) :
    P _ (.list OwnerReference.schema.codec) refs := by
  obtain ⟨g, _, _, hclaim⟩ := Owner.controlOf_eq_ok.mp h
  have href : P _ OwnerReference.schema.codec (.controlling g install.name install.uid) :=
    (hP.record .ownerReference).mpr ⟨hP.text _, hP.text _, hname, huid, fun b _ => hP.flag b,
      fun b _ => hP.flag b, trivial⟩
  refine hP.list.mpr fun r hr => ?_
  rcases OwnerReference.mem_upsert ((App.claim_eq_ok.mp hclaim).2 ▸ hr) with rfl | hr
  · exact href
  · rcases hbefore : app.ownerReferences with _ | before
    · rw [hbefore] at hr
      exact absurd hr List.not_mem_nil
    · rw [hbefore] at hr
      exact hP.list.mp (happ before hbefore) r hr

end

end AppSynthesis
