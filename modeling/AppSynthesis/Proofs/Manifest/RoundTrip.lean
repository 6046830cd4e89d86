/-
AppSynthesis.Proofs.Manifest.RoundTrip — an App that was read is written and read as the
same App.

* `App.same_detached` — Apps are compared without regard to where their collections come
  from.
* `App.same_self_of_parse` — an App that was read from a document without repeated keys is
  the same as itself.
* `App.parse_document_same` — it is read again from the document it is written as, and what
  is read is the same App, equal to it up to the origins of three collections.

`App.parse_toDoc` says what is read from the document of a readable App, and
`App.readable_of_parse` that the Apps that were read are readable. What is added here is that
the comparison of Apps holds between the two. It looks up keys of maps, so it tells an App
from itself unless the keys of the maps in it are distinct; reading keeps them so
(`App.good_of_parse`).
-/
import AppSynthesis.Proofs.Manifest.Parsed

namespace AppSynthesis

/-! ## Comparing without regard to origins -/

theorem Value.detached_agrees (v w : Value) : v.detached.agrees w = v.agrees w := by
  cases v <;> cases w <;> rfl

/-- Where the collections of an App come from makes no difference to what it is the same
as. -/
theorem App.same_detached (x y : App) : App.schema.same x.detached y = App.schema.same x y := by
  simp only [Schema.same, App.schema, Fields.same, App.detached, Codec.anyMap,
    Value.detached_agrees]

/-- **An App that was read is the same as itself** when no map in its document has a key
twice. -/
theorem App.same_self_of_parse {doc : Value} {x : App} (hdoc : doc.keysDistinct = true)
    (h : App.parse doc = .ok x) : App.schema.same x x = true :=
  RecordType.reflexive .app x (App.good_of_parse Value.hereditary_keysDistinct hdoc h)

/-! ## Writing and reading again -/

/-- **An App that was read is read again from its own document as the same App.** Nothing but
the origins of its annotations, its labels and its status can differ. The sync period has to
be one that is read back. -/
theorem App.parse_document_same {doc : Value} {x : App} (hdoc : doc.keysDistinct = true)
    (h : App.parse doc = .ok x) (hwritable : x.isWritable = true)
    (hperiod : ∀ d ∈ x.spec.syncPeriod, parseDuration (.str d.text) = .ok (some d)) :
    ∃ written again, x.toDoc = .ok written ∧ App.parse written = .ok again ∧
      App.schema.same again x = true ∧ again = x.detached := by
  have hreadable := App.readable_of_parse h fun d hd => Codec.readsBack_duration (hperiod d hd)
  obtain ⟨written, hwritten, hagain⟩ := App.parse_toDoc hreadable hwritable
  exact ⟨written, x.detached, hwritten, hagain,
    (x.same_detached x).trans (App.same_self_of_parse hdoc h), rfl⟩

/-- A document with sources and stages of all kinds, flags that are off, empty lists and
empty records, steps that are carried as they are, another cluster and an owner. -/
theorem App.parse_document_same_full :
    ∃ (doc : Value) (x : App), doc.keysDistinct = true ∧ App.parse doc = .ok x ∧
      x.isWritable = true ∧ x.spec.paused = some false ∧ x.spec.syncPeriod.isSome = true ∧
      (x.spec.fetch.getD []).length = 7 ∧ (x.spec.template.getD []).length = 5 ∧
      ∃ written again, x.toDoc = .ok written ∧ App.parse written = .ok again ∧
        App.schema.same again x = true ∧ again = x.detached := by
  let map (entries : List (String × Value)) : Value :=
    .map (some 1) (entries.map fun e => (.str e.1, e.2))
  let list (items : List Value) : Value := .list (some 2) items
  let named (name : String) : Value := map [("name", .str name)]
  let rawStep := map [("rawOptions", list [.str "--wait=false", .int 3, .bool false, .null])]
  let fetch := list
    [map [("inline", map [("paths", map [("config.yml", .str "a: 1")]),
        ("pathsFrom", list [map [("secretRef", map [("name", .str "files"),
          ("directoryPath", .str "etc")])], map [("configMapRef", named "more")], map []])])],
      map [("image", map [("url", .str "registry/web"), ("secretRef", named "registry"),
        ("tagSelection", map [("semver", map [("constraints", .str ">1")])])]),
        ("path", .str "web")],
      map [("http", map [("url", .str "http://web"), ("sha256", .str "0f"), ("subPath", .str "")])],
      map [("git", map [("url", .str "http://git"), ("ref", .null), ("lfsSkipSmudge", .bool false),
        ("refSelection", map []), ("depth", .str "1"), ("forceHTTPBasicAuth", .int 1)])],
      map [("helmChart", map [("name", .str "web"), ("version", .int 1),
        ("repository", map [("url", .str "http://charts"), ("secretRef", named "charts")])])],
      map [("imgpkgBundle", map [("image", .str "registry/bundle"), ("tagSelection", map [])])],
      map []]
  let template := list
    [map [("ytt", map [("strict", .bool false), ("paths", list []), ("inline", map []),
        ("fileMarks", list [.str "a:exclude=true"]),
        ("valuesFrom", list [map [("secretRef", named "values")], map [("path", .str "v.yml")],
          map [("downwardAPI", map [("items", list [])])]])])],
      map [("helmTemplate", map [("name", .str "web"), ("namespace", .null),
        ("kubeAPIs", map [("fetch", .bool true)])])],
      map [("kbld", map [("paths", list [.str "-"])])], map [("sops", rawStep)],
      map [("cue", map [])]]
  let spec := map [("fetch", fetch), ("template", template),
    ("deploy", list [map [("kapp", rawStep)], map []]), ("serviceAccountName", .str "web-sa"),
    ("syncPeriod", .str "1h30m"), ("noopDelete", .bool false), ("paused", .bool false),
    ("cluster", map [("namespace", .str "prod"), ("kubeconfigSecretRef", map [("name", .str "k"),
      ("key", .null)])])]
  let doc := map [("apiVersion", .str "kappctrl.k14s.io/v1alpha1"),
    ("metadata", map [("name", .str "web"), ("namespace", .str "apps"), ("uid", .str "u-1"),
      ("annotations", map [("note", .str "kept")]),
      ("ownerReferences", list [map [("apiVersion", .str "v1"), ("kind", .str "Pod"),
        ("name", .str "web"), ("uid", .str "u-2"), ("controller", .bool false)]])]),
    ("spec", spec), ("status", map [])]
  have haccepted : (App.parse doc).toOption.any (fun x => decide (x.isWritable = true ∧
      x.spec.paused = some false ∧ (x.spec.fetch.getD []).length = 7 ∧
      (x.spec.template.getD []).length = 5 ∧
      x.spec.syncPeriod = Duration.ofMicros? 5400000000)) = true := by decide +kernel
  rcases hx : App.parse doc with e | x
  · rw [hx] at haccepted
    cases haccepted
  rw [hx] at haccepted
  obtain ⟨hwritable, hpaused, hsteps, hstages, hsome⟩ := of_decide_eq_true haccepted
  have hperiod : ∀ d ∈ x.spec.syncPeriod, parseDuration (.str d.text) = .ok (some d) := by
    intro d hd
    obtain rfl : (⟨5400000000, by decide, by decide⟩ : Duration) = d :=
      Option.some.inj (hsome.symm.trans hd)
    have hparse : (Duration.parse (Duration.text ⟨5400000000, by decide, by decide⟩)).toOption =
        some ⟨5400000000, by decide, by decide⟩ := by
      decide +kernel
    unfold parseDuration
    dsimp only
    rw [toOption_eq_some.mp hparse]
  have hdoc : doc.keysDistinct = true := by decide +kernel
  exact ⟨doc, x, hdoc, hx, hwritable, hpaused, by rw [hsome]; rfl, hsteps, hstages,
    App.parse_document_same hdoc hx hwritable hperiod⟩

end AppSynthesis
