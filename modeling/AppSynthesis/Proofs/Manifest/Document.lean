/-
AppSynthesis.Proofs.Manifest.Document — an App is read from its own document.

* `App.detached` — the App with annotations, labels and status as collections of their own;
  `App.toDoc_detached`, it has the same document.
* `App.Readable` — what it takes to read an App again: a name, a namespace, owner references
  that are some if there is a list, and parts that read back.
* `App.parse_toDoc` — then it is read from its document, detached.
* `App.parse_eq_ok`, `PackageInstall.parse_eq_ok`, `Package.parse_eq_ok` — what resources that
  were read have; `App.readable_of_parse`, such an App is readable when its sync period is.

The metadata of a document is a selection of what an App is written as, and the
specification is a part of it. So all that is read was found under its own key in the row of
the App (`Schema.writtenIn_encode`).
-/
import AppSynthesis.Duration.Argument
import AppSynthesis.Manifest.Document
import AppSynthesis.Proofs.Schema.RoundTrip

namespace AppSynthesis

/-! ## Collections of their own -/

namespace Value

theorem detached_detached (v : Value) : v.detached.detached = v.detached := by cases v <;> rfl

theorem isCollection_detached (v : Value) : v.detached.isCollection = v.isCollection := by
  cases v <;> rfl

theorem detached_eq_null {v : Value} : v.detached = .null ↔ v = .null := by
  cases v <;> simp [detached]

end Value

/-- The App with annotations, labels and status as collections of their own. -/
def App.detached (x : App) : App :=
  { x with
    annotations := x.annotations.detached
    labels := x.labels.detached
    status := x.status.detached }

/-- Collections of its own make no difference to the document of an App. -/
theorem App.toDoc_detached (x : App) : x.detached.toDoc = x.toDoc := by
  have hwritable : x.detached.isWritable = x.isWritable := by
    simp only [isWritable, detached, Value.isCollection_detached]
  have hencode : App.schema.fields.encode (App.schema.row x.detached) =
      App.schema.fields.encode (App.schema.row x) := by
    simp only [App.schema, Fields.encode, detached, Codec.anyMap, Value.detached_eq_null,
      Value.detached_detached]
  unfold toDoc
  rw [hwritable, hencode]

/-! ## Parts -/

theorem parsePart_eq_ok {α : Type} {s : Schema α} {owner : String} {v : Value} {x : α} :
    parsePart s owner v = .ok x ↔ s.decode v = .ok x := by
  unfold parsePart
  split <;> rename_i h <;> try simp [h]
  split <;> simp

theorem parsePart_encode {α : Type} {s : Schema α} (hs : s.fields.Regular) {owner : String}
    {x : α} (h : s.codec.ReadsBack x) : parsePart s owner (s.encode x) = .ok x :=
  parsePart_eq_ok.mpr ((Schema.decode_encode_iff hs).mpr ((Schema.readsBack_codec hs).mp h))

/-- A record stands for itself, also when nothing is in it. -/
theorem Schema.orElse_encode {α : Type} (s : Schema α) (x : α) :
    (s.encode x).orElse .emptyMap = s.encode x := by
  unfold Value.orElse Schema.encode
  rcases s.fields.encode (s.row x) with _ | ⟨e, rest⟩ <;> rfl

/-- A selection of keys holds what the entries hold under them. -/
theorem Entries.get?_select {entries : Entries} {key : String} (keys : List String) :
    Entries.get? (keys.filterMap fun k => (Entries.get? entries k).map fun v =>
      (Value.str k, v)) key = if key ∈ keys then Entries.get? entries key else none := by
  induction keys with
  | nil => rfl
  | cons k rest ih =>
    rw [List.filterMap_cons]
    by_cases hk : k = key
    · subst hk
      rcases hget : Entries.get? entries k with _ | v
      · simp [ih, hget]
      · simp [get?_cons_self]
    · rcases Entries.get? entries k with _ | v
      · simp [ih, Ne.symm hk]
      · simp [get?_cons_of_ne hk, ih, Ne.symm hk]

/-- What is found of a field that is left out when it is null. -/
theorem Entries.getD_of_written {entries : Entries} {key : String} {v w : Value}
    (hnull : v = .null → w = .null)
    (h : Entries.get? entries key = if v = .null then none else some w) :
    Entries.getD entries key = w := by
  rw [Entries.getD, h]
  split
  · rename_i hv
    exact (hnull hv).symm
  · rfl

/-- A part that was read was given. -/
theorem given_of_parsePart {α : Type} {s : Schema α} {owner : String} {v : Value} {x : α}
    (h : parsePart s owner v = .ok x) : s.codec.Given x :=
  ⟨v, toOption_eq_some.mpr (parsePart_eq_ok.mp h)⟩

/-! ## The document of an App -/

/-- What it takes to read an App from its document. -/
structure App.Readable (x : App) : Prop where
  name : x.name.isTrue = true
  ns : x.ns.isTrue = true
  /-- No App has an empty list of owners. -/
  owned : x.ownerReferences ≠ some []
  owners : ∀ refs ∈ x.ownerReferences, (Codec.list OwnerReference.schema.codec).ReadsBack refs
  spec : AppSpec.schema.codec.ReadsBack x.spec

/-- The metadata in the document of an App whose data has the given entries. -/
def App.metadataOf (entries : Entries) : Entries :=
  App.metadataKeys.filterMap fun key => (Entries.get? entries key).map fun v => (.str key, v)

section

variable {entries : Entries}

theorem checkVersion_docOf : checkVersion .app (App.docOf entries) = .ok () := rfl

theorem member_metadata_docOf :
    (App.docOf entries).member "metadata" = .ok (.map none (App.metadataOf entries)) := rfl

theorem member_spec_docOf :
    (App.docOf entries).member "spec" = .ok (Entries.getD entries "spec") := rfl

theorem member_status_docOf :
    (App.docOf entries).member "status" = .ok (Entries.getD entries "status") := by
  have hget : Entries.getD entries "status" = (Entries.get? entries "status").getD .null := rfl
  rw [hget]
  unfold App.docOf
  rcases Entries.get? entries "status" with _ | v <;> rfl

end

section

variable {x : App}

/-- The members of an App as they stand in its document. -/
theorem App.written (x : App) :
    App.schema.fields.WrittenIn (App.schema.fields.encode (App.schema.row x))
      (App.schema.row x) :=
  Schema.writtenIn_encode (RecordType.regular .app)

theorem App.metadataOf_written {key : String} (h : key ∈ App.metadataKeys) {entries : Entries} :
    Entries.get? (App.metadataOf entries) key = Entries.get? entries key :=
  (Entries.get?_select _).trans (if_pos h)

theorem Value.member_map (origin : Origin) (entries : Entries) (name : String) :
    (Value.map origin entries).member name = .ok (Entries.getD entries name) := rfl

theorem Value.given_of_isTrue {v : Value} (h : v.isTrue = true) (e : InputError) :
    v.given e = .ok v := if_pos h

theorem Metadata.parse_docOf (h : x.Readable) :
    ∃ m, Metadata.parse .app (App.docOf (App.schema.fields.encode (App.schema.row x))) = .ok m ∧
      m.entries = App.metadataOf (App.schema.fields.encode (App.schema.row x)) ∧
      m.name = x.name ∧ m.ns = x.ns := by
  obtain ⟨hname, hns, _⟩ := App.written x
  generalize hentries : App.schema.fields.encode (App.schema.row x) = entries at hname hns ⊢
  have hgetName : Entries.getD (App.metadataOf entries) "name" = x.name := by
    rw [Entries.getD, App.metadataOf_written (by decide), hname]
    rfl
  have hgetNs : Entries.getD (App.metadataOf entries) "namespace" = x.ns := by
    rw [Entries.getD, App.metadataOf_written (by decide), hns]
    rfl
  have hmetadata : (Value.map none (App.metadataOf entries)).isTrue = true := by
    rcases hempty : App.metadataOf entries with _ | ⟨e, rest⟩
    · have hnone : Entries.get? (App.metadataOf entries) "name" = none := by rw [hempty]; rfl
      rw [App.metadataOf_written (by decide), hname] at hnone
      cases hnone
    · rfl
  refine ⟨⟨App.metadataOf entries, x.name, x.ns⟩, ?_, rfl, rfl, rfl⟩
  unfold Metadata.parse
  simp only [member_metadata_docOf, Value.given_of_isTrue hmetadata, Value.member_map, hgetName,
    hgetNs, Value.given_of_isTrue h.name, Value.given_of_isTrue h.ns, bind, Except.bind, pure,
    Except.pure]

theorem parseOwnerReferences_metadataOf (h : x.Readable) {m : Metadata}
    (hm : m.entries = App.metadataOf (App.schema.fields.encode (App.schema.row x))) :
    parseOwnerReferences m = .ok x.ownerReferences := by
  obtain ⟨_, _, _, _, _, _, howners, _⟩ := App.written x
  unfold parseOwnerReferences
  rw [hm, App.metadataOf_written (by decide), howners]
  rcases hrefs : x.ownerReferences with _ | refs
  · rfl
  · obtain ⟨r, rest, rfl⟩ := List.exists_cons_of_ne_nil fun hnil => h.owned (hnil ▸ hrefs)
    have hmembers : ((r :: rest).map OwnerReference.schema.encode).mapM
        (parsePart OwnerReference.schema (m.owner .app)) = .ok (r :: rest) :=
      mapM_eq_ok.mpr <| mapM_map_eq_some.mpr fun r hr => toOption_eq_some.mpr <|
        parsePart_encode (RecordType.regular .ownerReference)
          (Codec.readsBack_list.mp (h.owners _ hrefs) r hr)
    show (((r :: rest).map OwnerReference.schema.encode).mapM
      (parsePart OwnerReference.schema (m.owner .app)) >>= fun refs =>
        pure (if refs.isEmpty then none else some refs)) = _
    rw [hmembers]
    rfl

end

/-- **An App is read from its own document**, up to where its collections come from. -/
theorem App.parse_toDoc {x : App} (h : x.Readable) (hwritable : x.isWritable = true) :
    ∃ doc, x.toDoc = .ok doc ∧ App.parse doc = .ok x.detached := by
  obtain ⟨hname, hns, huid, hversion, hannotations, hlabels, howners, hspec, hstatus, _⟩ :=
    App.written x
  obtain ⟨m, hm, hentries, hmname, hmns⟩ := Metadata.parse_docOf h
  have hrefs := parseOwnerReferences_metadataOf h hentries
  generalize hrow : App.schema.fields.encode (App.schema.row x) = entries at *
  have hget : ∀ key ∈ App.metadataKeys, Entries.getD m.entries key = Entries.getD entries key := by
    intro key hkey
    rw [hentries, Entries.getD, App.metadataOf_written hkey, Entries.getD]
  have hpart : parsePart AppSpec.schema (m.owner .app)
      ((Entries.getD entries "spec").orElse .emptyMap) = .ok x.spec := by
    rw [Entries.getD, hspec]
    exact (AppSpec.schema.orElse_encode x.spec).symm ▸
      parsePart_encode (RecordType.regular .appSpec) h.spec
  refine ⟨App.docOf entries, by rw [toDoc, hrow, if_pos hwritable], ?_⟩
  unfold App.parse
  simp only [checkVersion_docOf, hm, hrefs, member_spec_docOf, hpart, member_status_docOf, bind,
    Except.bind, pure, Except.pure, Except.ok.injEq]
  rw [hmname, hmns, hget _ (by decide), hget _ (by decide), hget _ (by decide), hget _ (by decide),
    Entries.getD_of_written id huid, Entries.getD_of_written id hversion,
    Entries.getD_of_written Value.detached_eq_null.mpr hannotations,
    Entries.getD_of_written Value.detached_eq_null.mpr hlabels,
    Entries.getD_of_written Value.detached_eq_null.mpr hstatus]
  rfl

/-! ## Apps that were read -/

theorem Value.given_eq_ok {v w : Value} {e : InputError} :
    v.given e = .ok w ↔ v.isTrue = true ∧ w = v := by
  unfold Value.given
  split
  · rename_i h
    simp [h, eq_comm]
  · rename_i h
    simp [h]

theorem Metadata.isTrue_of_parse {kind : Kind} {doc : Value} {m : Metadata}
    (h : Metadata.parse kind doc = .ok m) : m.name.isTrue = true ∧ m.ns.isTrue = true := by
  unfold Metadata.parse at h
  obtain ⟨_, _, h⟩ := bind_eq_ok.mp h
  obtain ⟨metadata, _, h⟩ := bind_eq_ok.mp h
  obtain ⟨_, _, h⟩ := bind_eq_ok.mp h
  obtain ⟨name, hname, h⟩ := bind_eq_ok.mp h
  obtain ⟨_, _, h⟩ := bind_eq_ok.mp h
  obtain ⟨ns, hns, h⟩ := bind_eq_ok.mp h
  split at h <;> cases h
  obtain ⟨hname, rfl⟩ := Value.given_eq_ok.mp hname
  obtain ⟨hns, rfl⟩ := Value.given_eq_ok.mp hns
  exact ⟨hname, hns⟩

theorem parseOwnerReferences_eq_ok {m : Metadata} {owners : Option (List OwnerReference)}
    (h : parseOwnerReferences m = .ok owners) :
    owners ≠ some [] ∧
      ∀ refs ∈ owners, (Codec.list OwnerReference.schema.codec).ReadsBack refs := by
  unfold parseOwnerReferences at h
  split at h
  · cases h
    exact ⟨nofun, nofun⟩
  · split at h
    · cases h
    · obtain ⟨refs, hrefs, h⟩ := bind_eq_ok.mp h
      have hgiven : ∀ r ∈ refs, OwnerReference.schema.codec.Given r := by
        intro r hr
        obtain ⟨v, _, hv⟩ := exists_mem_of_mapM (mapM_eq_ok.mp hrefs) r hr
        exact given_of_parsePart (toOption_eq_some.mp hv)
      have hback : (Codec.list OwnerReference.schema.codec).ReadsBack refs :=
        Codec.readsBack_list.mpr fun r hr => RecordType.stable .ownerReference rfl r (hgiven r hr)
      cases refs with
      | nil =>
        obtain rfl := Except.ok.inj h
        exact ⟨nofun, nofun⟩
      | cons r rest =>
        obtain rfl := Except.ok.inj h
        exact ⟨nofun, fun _ hmem => Option.mem_some.mp hmem ▸ hback⟩

/-- A duration is read back when its text denotes it. -/
theorem Codec.readsBack_duration {d : Duration} (h : parseDuration (.str d.text) = .ok (some d)) :
    Codec.duration.ReadsBack d := by
  unfold parseDuration at h
  dsimp only at h
  split at h <;> cases h
  rename_i hparse
  exact toOption_eq_some.mpr hparse

/-- What was read as a specification is read back if its sync period is. -/
theorem AppSpec.readsBack_of_given {spec : AppSpec} (h : AppSpec.schema.codec.Given spec)
    (hperiod : ∀ d ∈ spec.syncPeriod, Codec.duration.ReadsBack d) :
    AppSpec.schema.codec.ReadsBack spec := by
  obtain ⟨hfetch, htemplate, hdeploy, _, _, _, _, _, hcluster, _⟩ :=
    Schema.each_given_of_codec (RecordType.regular .appSpec) h
  have hsteps := Codec.stable_list (RecordType.stable .fetchStep rfl)
  have hstages := Codec.stable_list (RecordType.stable .templateStep rfl)
  have hmaps := Codec.stable_list (Codec.stable_mapOf Codec.stable_any)
  exact (Codec.inherited_readsBack.record .appSpec).mpr
    ⟨fun xs hxs => hsteps xs (hfetch xs hxs), fun xs hxs => hstages xs (htemplate xs hxs),
      fun xs hxs => hmaps xs (hdeploy xs hxs), fun s _ => rfl, hperiod, fun b _ => rfl,
      fun b _ => rfl, fun b _ => rfl,
      fun c hc => RecordType.stable .cluster rfl c (hcluster c hc), fun s _ => rfl, trivial⟩

/-- What an App that was read has: a name, a namespace, owner references that are read back,
and a specification that was given. -/
theorem App.parse_eq_ok {doc : Value} {x : App} (h : App.parse doc = .ok x) :
    x.name.isTrue = true ∧ x.ns.isTrue = true ∧ x.ownerReferences ≠ some [] ∧
      (∀ refs ∈ x.ownerReferences, (Codec.list OwnerReference.schema.codec).ReadsBack refs) ∧
      AppSpec.schema.codec.Given x.spec := by
  unfold App.parse at h
  obtain ⟨_, _, h⟩ := bind_eq_ok.mp h
  obtain ⟨m, hm, h⟩ := bind_eq_ok.mp h
  obtain ⟨owners, howners, h⟩ := bind_eq_ok.mp h
  obtain ⟨_, _, h⟩ := bind_eq_ok.mp h
  obtain ⟨spec, hspec, h⟩ := bind_eq_ok.mp h
  obtain ⟨status, _, h⟩ := bind_eq_ok.mp h
  obtain rfl := Except.ok.inj h
  obtain ⟨hname, hns⟩ := Metadata.isTrue_of_parse hm
  obtain ⟨howned, howners⟩ := parseOwnerReferences_eq_ok howners
  exact ⟨hname, hns, howned, howners, given_of_parsePart hspec⟩

/-- **An App that was read is readable** if its sync period is read back. -/
theorem App.readable_of_parse {doc : Value} {x : App} (h : App.parse doc = .ok x)
    (hperiod : ∀ d ∈ x.spec.syncPeriod, Codec.duration.ReadsBack d) : x.Readable := by
  obtain ⟨hname, hns, howned, howners, hspec⟩ := App.parse_eq_ok h
  exact ⟨hname, hns, howned, howners, AppSpec.readsBack_of_given hspec hperiod⟩

/-- An install that was read has a name, a namespace, and a specification that was given. -/
theorem PackageInstall.parse_eq_ok {doc : Value} {x : PackageInstall}
    (h : PackageInstall.parse doc = .ok x) :
    x.name.isTrue = true ∧ x.ns.isTrue = true ∧ InstallSpec.schema.codec.Given x.spec := by
  unfold PackageInstall.parse at h
  obtain ⟨_, _, h⟩ := bind_eq_ok.mp h
  obtain ⟨m, hm, h⟩ := bind_eq_ok.mp h
  obtain ⟨_, _, h⟩ := bind_eq_ok.mp h
  obtain ⟨spec, hspec, h⟩ := bind_eq_ok.mp h
  obtain rfl := Except.ok.inj h
  obtain ⟨hname, hns⟩ := Metadata.isTrue_of_parse hm
  exact ⟨hname, hns, given_of_parsePart hspec⟩

/-- A package that was read has a name, a namespace, and a template that was given. -/
theorem Package.parse_eq_ok {doc : Value} {x : Package} (h : Package.parse doc = .ok x) :
    x.name.isTrue = true ∧ x.ns.isTrue = true ∧ AppSpec.schema.codec.Given x.template := by
  unfold Package.parse at h
  obtain ⟨_, _, h⟩ := bind_eq_ok.mp h
  obtain ⟨m, hm, h⟩ := bind_eq_ok.mp h
  obtain ⟨_, _, h⟩ := bind_eq_ok.mp h
  obtain ⟨spec, _, h⟩ := bind_eq_ok.mp h
  obtain ⟨_, _, h⟩ := bind_eq_ok.mp h
  obtain ⟨refName, _, h⟩ := bind_eq_ok.mp h
  obtain ⟨_, _, h⟩ := bind_eq_ok.mp h
  obtain ⟨version, _, h⟩ := bind_eq_ok.mp h
  obtain ⟨_, _, h⟩ := bind_eq_ok.mp h
  obtain ⟨_, _, h⟩ := bind_eq_ok.mp h
  obtain ⟨template, htemplate, h⟩ := bind_eq_ok.mp h
  obtain rfl := Except.ok.inj h
  obtain ⟨hname, hns⟩ := Metadata.isTrue_of_parse hm
  exact ⟨hname, hns, given_of_parsePart htemplate⟩

/-- The resource that was read, by kind. -/
inductive Resource.Parsed (doc : Value) : Resource → Prop
  | app {x : App} : App.parse doc = .ok x → Parsed doc (.app x)
  | packageInstall {x : PackageInstall} :
    PackageInstall.parse doc = .ok x → Parsed doc (.packageInstall x)
  | package {x : Package} : Package.parse doc = .ok x → Parsed doc (.package x)

theorem Resource.parse_eq_ok {doc : Value} {obj : Resource} (h : Resource.parse doc = .ok obj) :
    Parsed doc obj := by
  unfold Resource.parse at h
  obtain ⟨_, _, h⟩ := bind_eq_ok.mp h
  obtain ⟨kind, _, h⟩ := bind_eq_ok.mp h
  split at h
  · obtain ⟨x, hx, rfl⟩ := map_eq_ok.mp h
    exact .app hx
  · obtain ⟨x, hx, rfl⟩ := map_eq_ok.mp h
    exact .packageInstall hx
  · obtain ⟨x, hx, rfl⟩ := map_eq_ok.mp h
    exact .package hx
  · cases h

end AppSynthesis
