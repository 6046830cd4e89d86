/-
AppSynthesis.Proofs.Ownership.Upgrade — owners whose API version changes.

* `OwnerReference.refersTo_iff_apiVersion` — when two references mean the same owner, told by
  their API versions.
* `controlOfRecord_upgraded` — an owner whose API version has become another of the same group
  finds the reference that was written for it before, and replaces it in its place.
* `ofApiVersion_normal` — what any text stands for as an API version, and that owners are
  recognised under all API versions of a group.

The reference that is written holds the API version in its normal form, and not the text that the
type was registered under. That the group survives this is all that owners are recognised by.
-/
import AppSynthesis.Proofs.Ownership.Controller

namespace AppSynthesis

/-! ## References -/

namespace OwnerReference

variable {a b ref new : OwnerReference} {given refs : List OwnerReference}

/-- Two references mean the same owner when their API versions are of one group, whatever the
versions, and kind and name are the same. -/
theorem refersTo_iff_apiVersion :
    a.refersTo b = true ↔
      (∃ group v w, ApiVersionOf group v a.apiVersion ∧ ApiVersionOf group w b.apiVersion) ∧
        a.kind = b.kind ∧ a.name.same b.name = true := by
  have hgroup : a.group = b.group ↔
      ∃ group v w, ApiVersionOf group v a.apiVersion ∧ ApiVersionOf group w b.apiVersion := by
    constructor
    · intro h
      obtain ⟨v, hv⟩ := group_eq_iff.mp h
      obtain ⟨w, hw⟩ := group_eq_iff.mp (rfl : b.group = b.group)
      exact ⟨b.group, v, w, hv, hw⟩
    · rintro ⟨group, v, w, hv, hw⟩
      exact (group_eq_iff.mpr ⟨v, hv⟩).trans (group_eq_iff.mpr ⟨w, hw⟩).symm
  rw [refersTo_iff, ← hgroup]
  exact ⟨fun h => ⟨h.group, h.kind, h.name⟩, fun ⟨hg, hkind, hname⟩ => ⟨hg, hkind, hname⟩⟩

/-- A reference that was made of others has a place, and none to its owner comes before. -/
theorem Upserted.exists_place (h : Upserted ref given refs) :
    ∃ before after, refs = before ++ ref :: after ∧ ∀ r ∈ before, ¬r.Coreferent ref := by
  rcases h with ⟨before, _, after, _, _, hbefore, rfl⟩ | ⟨hnone, rfl⟩
  · exact ⟨before, after, rfl, hbefore⟩
  · exact ⟨given, [], rfl, hnone⟩

/-- Another reference to the same owner takes that place. -/
theorem upsert_of_sameOwner {before after : List OwnerReference} (hsame : ref.SameOwner new)
    (hbefore : ∀ r ∈ before, ¬r.Coreferent ref) :
    new.upsert (before ++ ref :: after) = before ++ new :: after := by
  refine upsert_of_first (fun r hr => ?_) (refersTo_iff.mp hsame.refersTo)
  rw [← refersTo_iff, ← hsame.congr r, refersTo_iff]
  exact hbefore r hr

end OwnerReference

/-! ## Giving control -/

variable {owner : Option Record} {app : App} {scheme scheme' : Scheme}
  {refs : List OwnerReference}

/-- **An owner is recognised after its API version has changed.** The reference that was written
for it is in the group of the new one, which takes its place. -/
theorem controlOfRecord_upgraded {g g' : GroupVersionKind}
    (hg : scheme.kindOfRecord owner = .ok g) (hg' : scheme'.kindOfRecord owner = .ok g')
    (hversion : '/' ∉ g.version.toList) (hversion' : '/' ∉ g'.version.toList)
    (hgroup : g.group = g'.group) (hkind : g.kind = g'.kind)
    (h : controlOfRecord owner (some ⟨.app, app⟩) scheme = .ok refs) :
    ∃ name uid before after, Record.member owner "name" = .ok name ∧
      Record.member owner "uid" = .ok uid ∧
      refs = before ++ .controlling g name uid :: after ∧
      (name.same name = true →
        controlOfRecord owner (some ⟨.app, { app with ownerReferences := some refs }⟩) scheme' =
          .ok (before ++ .controlling g' name uid :: after)) := by
  obtain ⟨g₁, ns, name, uid, hg₁, hns, hcheck, hname, huid, hclaim⟩ := controlOfRecord_eq_ok.mp h
  obtain rfl : g = g₁ := Except.ok.inj (hg.symm.trans hg₁)
  obtain ⟨hfree, hrefs⟩ := App.claim_eq_ok.mp hclaim
  obtain ⟨before, after, hplace, hbefore⟩ := (OwnerReference.upsert_iff.mpr hrefs).exists_place
  refine ⟨name, uid, before, after, hname, huid, hplace, fun hself => ?_⟩
  have hsame : OwnerReference.SameOwner (.controlling g name uid) (.controlling g' name uid) := by
    refine .of_eq ?_ hkind rfl hself
    rw [OwnerReference.group_controlling hversion, OwnerReference.group_controlling hversion',
      hgroup]
  refine controlOfRecord_eq_ok.mpr ⟨g', ns, name, uid, hg', hns, hcheck, hname, huid, ?_⟩
  -- The App is claimed as it would have been before the first reference was written.
  rw [App.claim_claimed (z := app) hsame rfl hclaim rfl rfl, App.claim_eq_ok]
  refine ⟨fun r hr => (hsame.congr r).symm.trans (hfree r hr), ?_⟩
  rw [← OwnerReference.upsert_upsert hsame, ← hrefs, hplace,
    OwnerReference.upsert_of_sameOwner hsame hbefore]

/-- **What an API version stands for.** Every text spells the group and version of the kind that it
stands for. This kind has the normal form of the text as its API version and is what that stands
for again, and references with that API version are in the group of the kind. Two references mean
the same owner exactly when kind and name are the same and their API versions are of one group. So
the reference that is written for an owner whose type has any API version is found again under all
API versions of the group, provided that the name of the owner equals itself, as all text does. -/
theorem ofApiVersion_normal (s kind : String) :
    let g := GroupVersionKind.ofApiVersion s kind
    ApiVersionOf g.group g.version s ∧
    NormalForm s g.apiVersion ∧
    .ofApiVersion g.apiVersion kind = g ∧
    (∀ r : OwnerReference, r.apiVersion = g.apiVersion → r.group = g.group) ∧
    (∀ a b : OwnerReference, a.refersTo b = true ↔
      (∃ group v w, ApiVersionOf group v a.apiVersion ∧ ApiVersionOf group w b.apiVersion) ∧
        a.kind = b.kind ∧ a.name.same b.name = true) ∧
    ∀ (t version : String), ApiVersionOf g.group version t →
      ∀ (owner : Option Record) (app : App) (scheme scheme' : Scheme)
        (refs : List OwnerReference),
      scheme.kindOfRecord owner = .ok g → scheme'.kindOfRecord owner = .ok (.ofApiVersion t kind) →
      controlOfRecord owner (some ⟨.app, app⟩) scheme = .ok refs →
      ∃ name uid before after, Record.member owner "name" = .ok name ∧
        Record.member owner "uid" = .ok uid ∧
        refs = before ++ .controlling g name uid :: after ∧
        (name.same name = true →
          controlOfRecord owner (some ⟨.app, { app with ownerReferences := some refs }⟩) scheme' =
            .ok (before ++ .controlling (.ofApiVersion t kind) name uid :: after)) := by
  intro g
  have hg : ApiVersionOf g.group g.version s := GroupVersionKind.apiVersionOf_ofApiVersion s kind
  have hwritten : ApiVersionOf g.group g.version g.apiVersion :=
    GroupVersionKind.apiVersionOf_apiVersion hg.not_mem_version
  refine ⟨hg, GroupVersionKind.normalForm_apiVersion hg,
    GroupVersionKind.ofApiVersion_apiVersion hg.not_mem_version,
    fun r hr => OwnerReference.group_eq_iff.mpr ⟨g.version, hr ▸ hwritten⟩,
    fun a b => OwnerReference.refersTo_iff_apiVersion, ?_⟩
  intro t version ht owner app scheme scheme' refs hscheme hscheme' h
  have hnew : GroupVersionKind.ofApiVersion t kind = ⟨g.group, version, kind⟩ :=
    GroupVersionKind.ofApiVersion_eq_iff.mpr ⟨ht, rfl⟩
  rw [hnew] at hscheme' ⊢
  exact controlOfRecord_upgraded hscheme hscheme' hg.not_mem_version ht.not_mem_version rfl rfl h

/-- An install is registered under an API version with nothing before the slash, and later under
one without a slash. Its reference was written under yet another version at first. -/
theorem ofApiVersion_normal_unnamed :
    ∃ (install : PackageInstall) (app : App) (scheme scheme' : Scheme)
      (pod first second third : OwnerReference),
      scheme = .register {} .packageInstall "/v2" "PackageInstall" ∧
      scheme' = .register {} .packageInstall "v3" "PackageInstall" ∧
      app.ownerReferences = some [pod, first] ∧ first.apiVersion = "/v1" ∧
      controlOfRecord (some ⟨.packageInstall, install⟩) (some ⟨.app, app⟩) scheme =
        .ok [pod, second] ∧ NormalForm "/v2" second.apiVersion ∧ second.apiVersion = "v2" ∧
      controlOfRecord (some ⟨.packageInstall, install⟩)
        (some ⟨.app, { app with ownerReferences := some [pod, second] }⟩) scheme' =
          .ok [pod, third] ∧ third.apiVersion = "v3" := by
  let install : PackageInstall := { name := .str "web", ns := .str "apps", uid := .str "u-1" }
  let pod : OwnerReference := { apiVersion := "v1", kind := "Pod", name := .str "web" }
  let first : OwnerReference :=
    { apiVersion := "/v1", kind := "PackageInstall", name := .str "web", controller := some true }
  let second : OwnerReference :=
    .controlling (.ofApiVersion "/v2" "PackageInstall") (.str "web") (.str "u-1")
  let third : OwnerReference :=
    .controlling (.ofApiVersion "v3" "PackageInstall") (.str "web") (.str "u-1")
  let app : App := { name := .str "web", ns := .str "apps", ownerReferences := some [pod, first] }
  let scheme : Scheme := .register {} .packageInstall "/v2" "PackageInstall"
  let scheme' : Scheme := .register {} .packageInstall "v3" "PackageInstall"
  have h : controlOfRecord (some ⟨.packageInstall, install⟩) (some ⟨.app, app⟩) scheme =
      .ok [pod, second] := toOption_eq_some.mp (by decide +kernel)
  obtain ⟨-, hnormal, -, -, -, hagain⟩ := ofApiVersion_normal "/v2" "PackageInstall"
  obtain ⟨name, uid, before, after, hname, huid, hplace, hupgraded⟩ :=
    hagain "v3" "v3" (splitAtLastSlash_eq_iff.mp (by decide +kernel)) _ app scheme scheme' _
      rfl rfl h
  obtain rfl : .str "web" = name := Except.ok.inj hname
  obtain rfl : .str "u-1" = uid := Except.ok.inj huid
  -- The reference to the install is the second of the two.
  obtain ⟨rfl, rfl⟩ : before = [pod] ∧ after = [] := by
    rcases before with _ | ⟨x, _ | ⟨y, rest⟩⟩
    · exact absurd (List.cons.inj hplace).1 (by decide +kernel)
    · obtain ⟨rfl, hrest⟩ := List.cons.inj hplace
      exact ⟨rfl, (List.cons.inj hrest).2.symm⟩
    · have hlength := congrArg List.length hplace
      simp at hlength
  exact ⟨install, app, scheme, scheme', pod, first, second, third, rfl, rfl, rfl, rfl, h, hnormal,
    by decide +kernel, hupgraded (by decide), by decide +kernel⟩

end AppSynthesis
