/-
AppSynthesis.Proofs.Manifest.Parsed — what resources that were read are written as.

* `Metadata.good_of_parse`, `good_of_parsePart` — metadata and parts of a document have the
  hereditary properties of the document.
* `Resource.good_of_parse` — so the document that a resource is written as has those of the
  document that it was read from.
-/
import AppSynthesis.Proofs.Manifest.Document
import AppSynthesis.Proofs.Schema.Hereditary

namespace AppSynthesis

variable {good : Value → Prop} (hgood : Value.Hereditary good)
include hgood

namespace Value.Hereditary

theorem of_member {v w : Value} (hv : good v) {name : String} (h : v.member name = .ok w) :
    good w := by
  cases v <;> try cases h
  exact hgood.of_getD hv name

theorem of_orElse {v : Value} (hv : good v) : good (v.orElse .emptyMap) := by
  unfold orElse
  split
  · exact hv
  · exact hgood.textMap List.nodup_nil fun _ he => absurd he List.not_mem_nil

end Value.Hereditary

/-! ## Parts of a document -/

theorem Metadata.good_of_parse {kind : Kind} {doc : Value} {m : Metadata} (hdoc : good doc)
    (h : Metadata.parse kind doc = .ok m) :
    (∃ origin, good (.map origin m.entries)) ∧ good m.name ∧ good m.ns := by
  unfold Metadata.parse at h
  obtain ⟨_, hmember, h⟩ := bind_eq_ok.mp h
  obtain ⟨metadata, hmetadata, h⟩ := bind_eq_ok.mp h
  obtain ⟨_, hnameMember, h⟩ := bind_eq_ok.mp h
  obtain ⟨name, hname, h⟩ := bind_eq_ok.mp h
  obtain ⟨_, hnsMember, h⟩ := bind_eq_ok.mp h
  obtain ⟨ns, hns, h⟩ := bind_eq_ok.mp h
  split at h <;> cases h
  obtain ⟨_, rfl⟩ := Value.given_eq_ok.mp hmetadata
  obtain ⟨_, rfl⟩ := Value.given_eq_ok.mp hname
  obtain ⟨_, rfl⟩ := Value.given_eq_ok.mp hns
  have hmap := hgood.of_member hdoc hmember
  exact ⟨⟨_, hmap⟩, hgood.of_member hmap hnameMember, hgood.of_member hmap hnsMember⟩

theorem good_of_parsePart {t : RecordType} {owner : String} {v : Value} {x : t.Carrier}
    (hv : good v) (h : parsePart t.schema owner v = .ok x) : good (t.schema.encode x) :=
  t.keeps hgood v x hv (toOption_eq_some.mpr (parsePart_eq_ok.mp h))

theorem OwnerReference.good_of_parse {m : Metadata} {origin : Origin}
    (hm : good (.map origin m.entries)) {owners : Option (List OwnerReference)}
    (h : parseOwnerReferences m = .ok owners) :
    ∀ refs ∈ owners, good ((Codec.list OwnerReference.schema.codec).write refs) := by
  unfold parseOwnerReferences at h
  split at h
  · obtain rfl := Except.ok.inj h
    exact nofun
  · rename_i v hget
    split at h
    · cases h
    · rename_i members hmembers
      obtain ⟨refs, hrefs, h⟩ := bind_eq_ok.mp h
      have hwritten : good ((Codec.list OwnerReference.schema.codec).write refs) := by
        refine hgood.items.mpr fun w hw => ?_
        obtain ⟨r, hr, rfl⟩ := List.mem_map.mp hw
        obtain ⟨u, hu, hread⟩ := exists_mem_of_mapM (mapM_eq_ok.mp hrefs) r hr
        exact @good_of_parsePart good hgood .ownerReference _ _ _
          (hgood.of_members? (hgood.of_get? hm hget) hmembers u hu) (toOption_eq_some.mp hread)
      obtain rfl := Except.ok.inj h
      intro refs' hrefs'
      split at hrefs'
      · cases hrefs'
      · exact Option.mem_some.mp hrefs' ▸ hwritten

/-! ## Resources -/

theorem App.good_of_parse {doc : Value} {x : App} (hdoc : good doc) (h : App.parse doc = .ok x) :
    good (App.schema.encode x) := by
  unfold App.parse at h
  obtain ⟨_, _, h⟩ := bind_eq_ok.mp h
  obtain ⟨m, hm, h⟩ := bind_eq_ok.mp h
  obtain ⟨owners, howners, h⟩ := bind_eq_ok.mp h
  obtain ⟨specDoc, hspecDoc, h⟩ := bind_eq_ok.mp h
  obtain ⟨spec, hspec, h⟩ := bind_eq_ok.mp h
  obtain ⟨status, hstatus, h⟩ := bind_eq_ok.mp h
  obtain rfl := Except.ok.inj h
  obtain ⟨⟨origin, hentries⟩, hname, hns⟩ := Metadata.good_of_parse hgood hdoc hm
  have hspecGood := hgood.of_orElse (hgood.of_member hdoc hspecDoc)
  exact Schema.good_encode hgood (RecordType.regular .app)
    ⟨hname, hns, fun _ => hgood.of_getD hentries "uid",
      fun _ => hgood.of_getD hentries "resourceVersion",
      fun _ => hgood.detached (hgood.of_getD hentries "annotations"),
      fun _ => hgood.detached (hgood.of_getD hentries "labels"),
      OwnerReference.good_of_parse hgood hentries howners,
      @good_of_parsePart good hgood .appSpec _ _ _ hspecGood hspec,
      fun _ => hgood.detached (hgood.of_member hdoc hstatus), trivial⟩

theorem PackageInstall.good_of_parse {doc : Value} {x : PackageInstall} (hdoc : good doc)
    (h : PackageInstall.parse doc = .ok x) : good (PackageInstall.schema.encode x) := by
  unfold PackageInstall.parse at h
  obtain ⟨_, _, h⟩ := bind_eq_ok.mp h
  obtain ⟨m, hm, h⟩ := bind_eq_ok.mp h
  obtain ⟨specDoc, hspecDoc, h⟩ := bind_eq_ok.mp h
  obtain ⟨spec, hspec, h⟩ := bind_eq_ok.mp h
  obtain rfl := Except.ok.inj h
  obtain ⟨⟨origin, hentries⟩, hname, hns⟩ := Metadata.good_of_parse hgood hdoc hm
  have hspecGood := hgood.of_orElse (hgood.of_member hdoc hspecDoc)
  have huid : good ((Entries.get? m.entries "uid").getD (.str "")) := by
    rcases hget : Entries.get? m.entries "uid" with _ | v
    · exact hgood.text ""
    · exact hgood.of_get? hentries hget
  exact Schema.good_encode hgood (RecordType.regular .packageInstall)
    ⟨hname, hns, huid, fun _ => hgood.detached (hgood.of_getD hentries "annotations"),
      @good_of_parsePart good hgood .installSpec _ _ _ hspecGood hspec, trivial⟩

theorem Package.good_of_parse {doc : Value} {x : Package} (hdoc : good doc)
    (h : Package.parse doc = .ok x) : good (Package.schema.encode x) := by
  unfold Package.parse at h
  obtain ⟨_, _, h⟩ := bind_eq_ok.mp h
  obtain ⟨m, hm, h⟩ := bind_eq_ok.mp h
  obtain ⟨_, hspecMember, h⟩ := bind_eq_ok.mp h
  obtain ⟨spec, hspec, h⟩ := bind_eq_ok.mp h
  obtain ⟨_, hrefNameMember, h⟩ := bind_eq_ok.mp h
  obtain ⟨refName, hrefName, h⟩ := bind_eq_ok.mp h
  obtain ⟨_, _, h⟩ := bind_eq_ok.mp h
  obtain ⟨version, _, h⟩ := bind_eq_ok.mp h
  obtain ⟨templateDoc, htemplateDoc, h⟩ := bind_eq_ok.mp h
  obtain ⟨templateSpec, htemplateSpec, h⟩ := bind_eq_ok.mp h
  obtain ⟨template, htemplate, h⟩ := bind_eq_ok.mp h
  obtain rfl := Except.ok.inj h
  obtain ⟨-, hname, hns⟩ := Metadata.good_of_parse hgood hdoc hm
  obtain ⟨_, rfl⟩ := Value.given_eq_ok.mp hspec
  obtain ⟨_, rfl⟩ := Value.given_eq_ok.mp hrefName
  have hspecGood := hgood.of_member hdoc hspecMember
  have htemplateGood := hgood.of_orElse
    (hgood.of_member (hgood.of_orElse (hgood.of_member hspecGood htemplateDoc)) htemplateSpec)
  exact Schema.good_encode hgood (RecordType.regular .package)
    ⟨hname, hns, hgood.of_member hspecGood hrefNameMember, hgood.text _,
      @good_of_parsePart good hgood .appSpec _ _ _ htemplateGood htemplate, trivial⟩

/-- **A resource is written with what the document that it was read from had.** -/
theorem Resource.good_of_parse {doc : Value} {obj : Resource} (hdoc : good doc)
    (h : Resource.parse doc = .ok obj) : good obj.document := by
  cases Resource.parse_eq_ok h with
  | app hx => exact App.good_of_parse hgood hdoc hx
  | packageInstall hx => exact PackageInstall.good_of_parse hgood hdoc hx
  | package hx => exact Package.good_of_parse hgood hdoc hx

omit hgood in
/-- A resource that was read from a document with text keys and without timestamps is written as
such a document. -/
theorem Resource.isJson_of_parse {doc : Value} {obj : Resource} (hdoc : doc.isJson = true)
    (h : Resource.parse doc = .ok obj) : obj.document.isJson = true :=
  good_of_parse Value.hereditary_isJson hdoc h

end AppSynthesis
