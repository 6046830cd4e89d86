/-
AppSynthesis.Proofs.Manifest.Layout — what is typed where in the specification of an App.

* `Layout` — how a place of a specification is typed; `RecordType.layout`, what stands under
  the keys of a record, and `Layout.at?`, what stands at a place inside.
* `Codec.Laid` — a codec reads and writes what a layout says; `RecordType.laid`, the fields of
  all parts of a specification do.
* `Codec.Laid.at?` — what stands at a place of a document is read by a codec of the layout
  there, and what it was read as is written at the same place.

The layouts are a table of their own, beside the fields of the records. A field with a value of
its own would be written where the document has nothing, so there is none in a specification.
-/
import AppSynthesis.Proofs.Manifest.Document
import AppSynthesis.Proofs.Value.Path

namespace AppSynthesis

/-! ## Layouts -/

/-- How a place of a document is typed. -/
inductive Layout where
  /-- Text, a flag, a number, a duration, or a map from text to text. -/
  | plain
  /-- A map that is carried as it is. -/
  | carried
  | record (t : RecordType)
  | list (items : Layout)
  deriving DecidableEq, Repr

namespace RecordType

/-- The types of the records in the specification of an App. -/
def isSpecPart : RecordType → Bool
  | .objectRef | .filesRef | .inlineSource | .inline | .image | .http | .git | .repository
  | .helmChart | .bundle | .fetchStep | .valuesRef | .valuesSource | .ytt | .helm
  | .templateStep | .kubeconfigRef | .cluster | .appSpec => true
  | _ => false

/-- What stands under the keys of a record. All that is not listed is plain. -/
def parts : RecordType → List (String × Layout)
  | .appSpec =>
    [("fetch", .list (.record .fetchStep)), ("template", .list (.record .templateStep)),
      ("deploy", .list .carried), ("cluster", .record .cluster)]
  | .cluster => [("kubeconfigSecretRef", .record .kubeconfigRef)]
  | .fetchStep =>
    [("inline", .record .inline), ("image", .record .image), ("http", .record .http),
      ("git", .record .git), ("helmChart", .record .helmChart),
      ("imgpkgBundle", .record .bundle)]
  | .inline => [("pathsFrom", .list (.record .inlineSource))]
  | .inlineSource => [("secretRef", .record .filesRef), ("configMapRef", .record .filesRef)]
  | .image => [("secretRef", .record .objectRef), ("tagSelection", .carried)]
  | .http => [("secretRef", .record .objectRef)]
  | .git => [("refSelection", .carried), ("secretRef", .record .objectRef)]
  | .helmChart => [("repository", .record .repository)]
  | .repository => [("secretRef", .record .objectRef)]
  | .bundle => [("secretRef", .record .objectRef), ("tagSelection", .carried)]
  | .templateStep =>
    [("ytt", .record .ytt), ("helmTemplate", .record .helm), ("kbld", .carried),
      ("sops", .carried), ("cue", .carried)]
  | .ytt =>
    [("inline", .record .inline), ("paths", .list .plain), ("fileMarks", .list .plain),
      ("valuesFrom", .list (.record .valuesSource))]
  | .helm => [("valuesFrom", .list (.record .valuesSource)), ("kubeAPIs", .carried)]
  | .valuesSource =>
    [("secretRef", .record .valuesRef), ("configMapRef", .record .valuesRef),
      ("downwardAPI", .carried)]
  | _ => []

/-- What stands under a key of a record. -/
def layout (t : RecordType) (key : String) : Layout := (t.parts.lookup key).getD .plain

end RecordType

/-- What stands at a place inside. -/
def Layout.at? : Value.Path → Layout → Option Layout
  | [], l => some l
  | .key name :: rest, .record t => at? rest (t.layout name)
  | .item _ :: rest, .list items => at? rest items
  | _ :: _, _ => none

/-! ## Codecs of a layout -/

/-- The codecs of what is typed so. -/
inductive Codec.Laid : Layout → (α : Type) → Codec α → Prop
  | text : Laid .plain _ text
  | anyText : Laid .plain _ anyText
  | flag : Laid .plain _ flag
  | count : Laid .plain _ count
  | duration : Laid .plain _ duration
  | textMap : Laid .plain _ textMap
  | carried : Laid .carried _ valueMap
  | record {t : RecordType} (h : t.isSpecPart = true) : Laid (.record t) _ t.schema.codec
  | list {l : Layout} {α : Type} {items : Codec α} (h : Laid l α items) :
    Laid (.list l) _ (list items)

/-- Fields that stand in documents as layouts of their keys say. None of them has a value of
its own when it is not there. -/
def Fields.Laid (layout : String → Layout) {α : Type} : Fields α → Prop
  | .done => True
  | .required _ key codec rest => Codec.Laid (layout key) _ codec ∧ rest.Laid layout
  | .defaulted _ _ _ _ _ => False
  | .optional _ key codec rest => Codec.Laid (layout key) _ codec ∧ rest.Laid layout
  | .loose _ key codec rest => (layout key = .plain ∧ codec = .anyText) ∧ rest.Laid layout

/-- The fields of all parts of a specification stand as their layout says. -/
theorem RecordType.laid (t : RecordType) (h : t.isSpecPart = true) :
    t.schema.fields.Laid t.layout := by
  cases t <;> try cases h
  all_goals
    repeat' first
      | exact trivial
      | exact .text
      | exact .anyText
      | exact .flag
      | exact .count
      | exact .duration
      | exact .textMap
      | exact .carried
      | exact .record rfl
      | exact .list .text
      | exact .list .carried
      | exact .list (.record rfl)
      | exact ⟨rfl, rfl⟩
      | constructor

/-! ## Reading and writing in place -/

namespace Fields

variable {layout : String → Layout} {record : String} {entries written : Entries}

/-- **What stands under a key is read by a codec of its layout**, and what it was read as is
written under the same key. -/
theorem read_key {key : String} {v : Value} (hget : Entries.get? entries key = some v)
    (hv : v ≠ .null) {α : Type} : ∀ {fields : Fields α} {x : α}, fields.Laid layout →
      fields.decode record entries = .ok x → fields.WrittenIn written x → key ∈ fields.keys →
      ∃ (β : Type) (c : Codec β) (y : β), Codec.Laid (layout key) β c ∧ c.read v = some y ∧
        Entries.get? written key = some (c.write y)
  | .done, _, _, _, _, hkey => absurd hkey List.not_mem_nil
  | .required _ _ codec _, (x, _), hlaid, hread, hwritten, hkey => by
    obtain ⟨⟨w, hw, hx⟩, hread⟩ := decode_required.mp hread
    rcases List.mem_cons.mp hkey with rfl | hkey
    · obtain rfl := Option.some.inj (hget.symm.trans hw)
      exact ⟨_, codec, x, hlaid.1, hx, hwritten.1⟩
    · exact read_key hget hv hlaid.2 hread hwritten.2 hkey
  | .optional _ _ codec _, (x, _), hlaid, hread, hwritten, hkey => by
    obtain ⟨hx, hread⟩ := decode_optional.mp hread
    rcases List.mem_cons.mp hkey with rfl | hkey
    · rw [Entries.getD, hget] at hx
      obtain ⟨hnull, _⟩ | ⟨_, y, hy, rfl⟩ := hx
      · exact absurd hnull hv
      · exact ⟨_, codec, y, hlaid.1, hy, hwritten.1⟩
    · exact read_key hget hv hlaid.2 hread hwritten.2 hkey
  | .loose _ _ _ _, (x, _), hlaid, hread, hwritten, hkey => by
    obtain ⟨hx, hread⟩ := decode_loose.mp hread
    rcases List.mem_cons.mp hkey with rfl | hkey
    · obtain ⟨⟨hplain, rfl⟩, _⟩ := hlaid
      rw [Entries.getD, hget] at hx
      obtain ⟨hnull, _⟩ | ⟨_, hx⟩ := hx
      · exact absurd hnull hv
      · obtain rfl : Value.str v.text = x := Option.some.inj hx
        exact ⟨_, .anyText, _, hplain ▸ .anyText, hx, hwritten.1⟩
    · exact read_key hget hv hlaid.2 hread hwritten.2 hkey

/-- Nothing is written under a key that was not there. -/
theorem key_of_written {α : Type} : ∀ {fields : Fields α} {x : α}, fields.Laid layout →
    fields.decode record entries = .ok x → ∀ e ∈ fields.encode x, e.1 ∈ entries.map (·.1)
  | .done, _, _, _ => fun _ he => absurd he List.not_mem_nil
  | .required _ _ _ _, (_, _), hlaid, hread => by
    obtain ⟨⟨_, hget, _⟩, hread⟩ := decode_required.mp hread
    exact List.forall_mem_cons.mpr
      ⟨List.mem_map.mpr ⟨_, Entries.mem_of_get? hget, rfl⟩, key_of_written hlaid.2 hread⟩
  | .optional _ _ _ rest, (_, _), hlaid, hread => by
    obtain ⟨⟨_, rfl⟩ | ⟨hne, _, _, rfl⟩, hrest⟩ := decode_optional.mp hread
    · exact @key_of_written _ rest _ hlaid.2 hrest
    · exact List.forall_mem_cons.mpr
        ⟨List.mem_map.mpr ⟨_, Entries.mem_of_getD hne, rfl⟩,
          @key_of_written _ rest _ hlaid.2 hrest⟩
  | .loose _ _ _ _, (x, _), hlaid, hread => by
    obtain ⟨hx, hread⟩ := decode_loose.mp hread
    rw [encode]
    split
    · exact key_of_written hlaid.2 hread
    · rename_i hnull
      obtain ⟨_, rfl⟩ | ⟨hne, _⟩ := hx
      · exact absurd rfl hnull
      · exact List.forall_mem_cons.mpr
          ⟨List.mem_map.mpr ⟨_, Entries.mem_of_getD hne, rfl⟩, key_of_written hlaid.2 hread⟩

end Fields

/-- Keys that a record knows are those of its fields. -/
theorem Schema.mem_keys_of_known {α : Type} {s : Schema α} {entries : Entries}
    (h : s.unknownKeys entries = []) {key : String} (hkey : .str key ∈ entries.map (·.1)) :
    key ∈ s.fields.keys := by
  simpa using List.filter_eq_nil_iff.mp h (.str key) hkey

/-- **What stands at a place of a document is read by a codec of the layout there**, and what
it was read as is written at the same place. By induction on the way to the place: each step
goes into a record or into a list. -/
theorem Codec.Laid.at? : ∀ {p : Value.Path} {l l' : Layout} {α : Type} {c : Codec α}
    {v u : Value} {x : α}, Laid l α c → l.at? p = some l' → c.read v = some x →
      v.at? p = some u → u ≠ .null →
      ∃ (β : Type) (c' : Codec β) (y : β), Laid l' β c' ∧ c'.read u = some y ∧
        (c.write x).at? p = some (c'.write y)
  | [], _, _, _, c, _, _, x, hlaid, hl, hread, hv, _ => by
    obtain rfl := Option.some.inj hl
    obtain rfl := Option.some.inj hv
    exact ⟨_, c, x, hlaid, hread, rfl⟩
  | .key name :: rest, _, _, _, _, _, u, x, hlaid, hl, hread, hv, hu => by
    cases hlaid with
    | @record t ht =>
      obtain ⟨origin, entries, w, rfl, hget, hw⟩ := Value.at?_key hv
      obtain ⟨_, _, hmap, hknown, hfields⟩ := Schema.decode_eq_ok.mp (toOption_eq_some.mp hread)
      cases hmap
      have hnull : w ≠ .null := by
        rintro rfl
        obtain rfl := Value.path_eq_nil_of_null hw
        exact hu (Option.some.inj hw).symm
      have hkey : name ∈ t.schema.fields.keys := Schema.mem_keys_of_known hknown
        (List.mem_map.mpr ⟨_, Entries.mem_of_get? hget, rfl⟩)
      obtain ⟨_, _, _, hlaid, hy, hwritten⟩ := Fields.read_key hget hnull (t.laid ht) hfields
        (Schema.writtenIn_encode t.regular) hkey
      obtain ⟨β, c', z, hlaid', hz, hat⟩ := hlaid.at? hl hy hw hu
      exact ⟨β, c', z, hlaid', hz, Option.bind_eq_some_iff.mpr ⟨_, hwritten, hat⟩⟩
    | _ => cases hl
  | .item index :: rest, _, _, _, _, _, u, xs, hlaid, hl, hread, hv, hu => by
    cases hlaid with
    | @list _ _ items hitems =>
      obtain ⟨origin, members, w, rfl, hget, hw⟩ := Value.at?_item hv
      obtain ⟨y, hxs, hy⟩ := getElem?_of_mapM hread hget
      obtain ⟨β, c', z, hlaid', hz, hat⟩ := hitems.at? hl hy hw hu
      refine ⟨β, c', z, hlaid', hz, Option.bind_eq_some_iff.mpr ⟨items.write y, ?_, hat⟩⟩
      rw [List.getElem?_map, hxs, Option.map_some]
    | _ => cases hl

end AppSynthesis
