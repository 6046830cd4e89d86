/-
AppSynthesis.Proofs.Synthesis.SelfSame — the App that is made is the same as itself.

* `Annotations.agrees_ofValue` — names from annotations in which no map has a key twice
  agree with themselves.
* `App.version_agrees`, `App.same_withVersion` — the version of Apps that are the same.
* `newApp_same_self` — the App that is made of resources in whose documents no map has a key
  twice is the same as itself.

Resources are the same as themselves (`Resource.same_self`), the names from their annotations
are, and this is inherited by what the synthesis puts together (`desiredSpec_inherits`,
`controlOf_inherits`). No condition is needed on what it makes of them.
-/
import AppSynthesis.Proofs.Schema.Reflexive
import AppSynthesis.Proofs.Synthesis.Inherited

namespace AppSynthesis

/-! ## Annotations -/

/-- The values of annotations in which no map has a key twice agree with themselves. -/
theorem Annotations.agrees_ofValue {v : Value} (hv : v.keysDistinct = true)
    {annotations : Annotations} (h : Annotations.ofValue v = .ok annotations) :
    ∀ e ∈ annotations, e.2.agrees e.2 = true := by
  unfold Annotations.ofValue at h
  split at h
  · split at h
    · rename_i entries
      split at h
      · rename_i hentries
        obtain rfl := Except.ok.inj h
        intro e he
        have hmem := Annotations.mem_of_textEntries? hentries e he
        exact e.2.agrees_self ((Value.entriesDistinct_iff.mp hv).2 _ hmem).2
      · cases h
    · cases h
  · obtain rfl := Except.ok.inj h
    simp

/-! ## The App -/

theorem Codec.keysDistinct_of_anyMap {α : Type} {values : Codec α} {v : Value}
    (h : v ≠ .null → ((Codec.anyMap values).write v).keysDistinct = true) :
    v.keysDistinct = true := by
  by_cases hnull : v = .null
  · rw [hnull]
    rfl
  · exact v.keysDistinct_detached ▸ h hnull

theorem keysDistinct_carriedEntries {v : Value} (hv : v.keysDistinct = true) {entries : Entries}
    (h : carriedEntries v = .ok entries) : Value.entriesDistinct entries = true := by
  unfold carriedEntries at h
  split at h
  · split at h
    · obtain rfl := Except.ok.inj h
      exact hv
    · cases h
  · obtain rfl := Except.ok.inj h
    rfl

/-- The annotations with a package recorded have no map with a key twice in them. -/
theorem keysDistinct_recordedEntries {entries : Entries} {package : Package}
    (hentries : Value.entriesDistinct entries = true)
    (hrefName : package.refName.keysDistinct = true) :
    (recordPackage entries package).keysDistinct = true :=
  Entries.keysDistinct_insert rfl (Entries.keysDistinct_insert hrefName hentries)

/-- Apps that are the same are the same under another version. -/
theorem App.same_withVersion {a b : App} (h : App.schema.same a b = true) {version : Value}
    (hversion : version.agrees version = true) :
    App.schema.same (a.withVersion version) (b.withVersion version) = true := by
  simp only [Schema.same, App.schema, Fields.same, Bool.and_eq_true] at h ⊢
  obtain ⟨hname, hns, huid, _, hrest⟩ := h
  exact ⟨hname, hns, huid, hversion, hrest⟩

/-- Apps that are the same have versions that agree. -/
theorem App.version_agrees {a b : App} (h : App.schema.same a b = true) :
    a.resourceVersion.agrees b.resourceVersion = true := by
  simp only [Schema.same, App.schema, Fields.same, Bool.and_eq_true] at h
  obtain ⟨_, _, _, hversion, _⟩ := h
  exact hversion

/-- **The App that is made is the same as itself**, if no map has a key twice in the
documents of what it is made from. -/
theorem newApp_same_self {existing : Option App} {install : PackageInstall} {package : Package}
    {options : Options} {a : App}
    (hexisting : (App.schema.encode (existing.getD {})).keysDistinct = true)
    (hinstall : (PackageInstall.schema.encode install).keysDistinct = true)
    (hpackage : (Package.schema.encode package).keysDistinct = true)
    (h : newApp existing install package options = .ok a) : App.schema.same a a = true := by
  have hself := Codec.inherited_selfSame
  have hbefore := RecordType.reflexive .app _ hexisting
  rcases newApp_cases h with ⟨_, rfl⟩ | ⟨entries, refs, annotations, hcarries, hrefs, hmap, rfl⟩
  · exact hbefore
  · obtain ⟨_, _, huid, hversion, _, hlabels, howners, _, hstatus⟩ :=
      (hself.record .app).mp hbefore
    obtain ⟨hname, hns, hinstallUid, _, hspec, _⟩ :=
      (hself.record .packageInstall).mp (RecordType.reflexive .packageInstall _ hinstall)
    obtain ⟨_, _, _, _, _, _, _, hcluster, _⟩ := (hself.record .installSpec).mp hspec
    obtain ⟨_, _, _, _, htemplate, _⟩ :=
      (hself.record .package).mp (RecordType.reflexive .package _ hpackage)
    obtain ⟨hfetch, hsteps, hdeploy, _⟩ := (hself.record .appSpec).mp htemplate
    obtain ⟨_, _, _, _, hcarried, _⟩ := Schema.each_distinct hexisting
    obtain ⟨_, _, _, hannotations, _⟩ := Schema.each_distinct hinstall
    obtain ⟨_, _, hrefName, _⟩ := Schema.each_distinct hpackage
    refine (hself.record .app).mpr ⟨hname, hns, huid, hversion, fun _ => ?_, hlabels, ?_, ?_,
      hstatus⟩
    · refine Value.agrees_self _ (keysDistinct_recordedEntries ?_ hrefName)
      exact keysDistinct_carriedEntries (Codec.keysDistinct_of_anyMap hcarried) hcarries.carried
    · intro xs hxs
      obtain rfl := Option.mem_some.mp hxs
      refine controlOf_inherits hself hname hinstallUid ?_ hrefs
      exact howners
    · exact desiredSpec_inherits hself
        (Annotations.agrees_ofValue (Codec.keysDistinct_of_anyMap hannotations) hmap)
        ⟨hfetch, hsteps, hdeploy⟩ hcluster fun d _ => beq_self_eq_true d

end AppSynthesis
