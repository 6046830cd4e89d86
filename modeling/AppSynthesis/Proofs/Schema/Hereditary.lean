/-
AppSynthesis.Proofs.Schema.Hereditary — what is written has what was read from had.

* `Value.Hereditary` — a property that values have when all that is in them has;
  `Value.hereditary_keysDistinct` and `Value.hereditary_isJson`, that no map has a key twice is
  one, and to have text keys and no timestamps is another.
* `Codec.Keeps` — what an element is written as has the property, if what it was read from had.
* `Schema.good_encode` — a record is written with the property when its fields are.
* `RecordType.keeps` — all record types keep it.

Every map of a document is either carried as it is, or put together anew from entries whose
keys were turned into text. In the second case `TextMap.ofList` sees to it that no key is
there twice, also where two keys of the document have the same text.
-/
import AppSynthesis.Proofs.Schema.Reflexive
import AppSynthesis.Proofs.Schema.RoundTrip
import AppSynthesis.Proofs.Value.Path

namespace AppSynthesis

/-! ## Hereditary properties -/

namespace Value

/-- A property that values have when all that is in them has. Of a map, only text keys are known
to allow for it. -/
structure Hereditary (good : Value → Prop) : Prop where
  null : good .null
  flag : ∀ b, good (.bool b)
  count : ∀ n, good (.int n)
  text : ∀ s, good (.str s)
  items : ∀ {origin items}, good (.list origin items) ↔ ∀ v ∈ items, good v
  members : ∀ {origin entries}, good (.map origin entries) → ∀ e ∈ entries, good e.1 ∧ good e.2
  textMap : ∀ {entries : Entries}, (entries.map (·.1)).Nodup →
    (∀ e ∈ entries, e.1.isText = true ∧ good e.2) → good (.map none entries)
  detached : ∀ {v}, good v → good v.detached

theorem hereditary_keysDistinct : Hereditary fun v => v.keysDistinct = true where
  null := rfl
  flag _ := rfl
  count _ := rfl
  text _ := rfl
  items := itemsDistinct_iff
  members h := (entriesDistinct_iff.mp h).2
  textMap {entries} hkeys h := by
    refine entriesDistinct_iff.mpr ⟨?_, fun e he => ⟨?_, (h e he).2⟩⟩
    · refine List.Pairwise.imp_of_mem (fun {a b} _ hb hne => ?_) (List.pairwise_map.mp hkeys)
      rw [Bool.eq_false_iff]
      exact fun hagrees => hne ((agrees_of_isText (h b hb).1).mp hagrees).symm
    · have htext := (h e he).1
      generalize e.1 = k at htext ⊢
      cases k <;> first | rfl | cases htext
  detached {v} h := v.keysDistinct_detached.trans h

theorem hereditary_isJson : Hereditary fun v => v.isJson = true where
  null := rfl
  flag _ := rfl
  count _ := rfl
  text _ := rfl
  items := itemsJson_iff
  members h e he := by
    obtain ⟨htext, hvalue⟩ := (entriesJson_iff.mp h).2 e he
    refine ⟨?_, hvalue⟩
    generalize e.1 = k at htext ⊢
    cases k <;> first | rfl | cases htext
  textMap hkeys h := entriesJson_iff.mpr ⟨hkeys, h⟩
  detached {v} h := by
    cases v <;> exact h

variable {good : Value → Prop} (hgood : Hereditary good)
include hgood

namespace Hereditary

/-- What a value runs through has the property. -/
theorem of_members? {v : Value} (hv : good v) {members : List Value}
    (hmembers : v.members? = some members) : ∀ w ∈ members, good w := by
  cases v with
  | list origin items =>
    obtain rfl := Option.some.inj hmembers
    exact hgood.items.mp hv
  | map origin entries =>
    obtain rfl := Option.some.inj hmembers
    intro w hw
    obtain ⟨e, he, rfl⟩ := List.mem_map.mp hw
    exact (hgood.members hv e he).1
  | str s =>
    obtain rfl := Option.some.inj hmembers
    intro w hw
    obtain ⟨c, _, rfl⟩ := List.mem_map.mp hw
    exact hgood.text _
  | _ => cases hmembers

theorem of_get? {origin : Origin} {entries : Entries} (hv : good (.map origin entries))
    {key : String} {v : Value} (h : Entries.get? entries key = some v) : good v :=
  (hgood.members hv _ (Entries.mem_of_get? h)).2

theorem of_getD {origin : Origin} {entries : Entries} (hv : good (.map origin entries))
    (key : String) : good (Entries.getD entries key) := by
  by_cases hnull : Entries.getD entries key = .null
  · rw [hnull]
    exact hgood.null
  · exact hgood.of_get? hv (Entries.get?_of_getD hnull)

end Hereditary

end Value

/-! ## Codecs -/

namespace Codec

variable {good : Value → Prop} (hgood : Value.Hereditary good)

/-- What an element is written as has the property, if what it was read from has. -/
def Keeps (good : Value → Prop) {α : Type} (c : Codec α) : Prop :=
  ∀ v x, good v → c.read v = some x → good (c.write x)

include hgood

theorem keeps_text : text.Keeps good := fun _ _ _ _ => hgood.text _

theorem keeps_flag : flag.Keeps good := fun _ _ _ _ => hgood.flag _

theorem keeps_count : count.Keeps good := fun _ _ _ _ => hgood.count _

theorem keeps_duration : duration.Keeps good := fun _ _ _ _ => hgood.text _

theorem keeps_anyText : anyText.Keeps good := fun _ _ _ h => Option.some.inj h ▸ hgood.text _

omit hgood in
theorem keeps_any : any.Keeps good := fun _ _ hv h => Option.some.inj h ▸ hv

theorem keeps_list {α : Type} {items : Codec α} (h : items.Keeps good) :
    (list items).Keeps good := by
  intro v xs hv hread
  obtain ⟨members, hmembers, hxs⟩ := Option.bind_eq_some_iff.mp hread
  refine hgood.items.mpr fun w hw => ?_
  obtain ⟨x, hx, rfl⟩ := List.mem_map.mp hw
  obtain ⟨u, hu, hux⟩ := exists_mem_of_mapM hxs x hx
  exact h u x (hgood.of_members? hv hmembers u hu) hux

/-- A map without repeated keys is written with the property when its values are. -/
theorem good_mapOf {α : Type} {values : Codec α} {m : TextMap α} (hm : m.Unique)
    (h : ∀ e ∈ m, good (values.write e.2)) : good ((mapOf values).write m) := by
  refine hgood.textMap ?_ fun e he => ?_
  · rw [List.map_map]
    exact List.pairwise_map.mpr ((TextMap.unique_iff.mp hm).imp fun hne heq =>
      hne (Value.str.inj heq))
  · obtain ⟨entry, hentry, rfl⟩ := List.mem_map.mp he
    exact ⟨rfl, h entry hentry⟩

theorem keeps_mapOf {α : Type} {values : Codec α} (h : values.Keeps good) :
    (mapOf values).Keeps good := by
  intro v m hv hread
  cases v <;> try cases hread
  obtain ⟨pairs, hpairs, rfl⟩ := Option.map_eq_some_iff.mp hread
  refine good_mapOf hgood (TextMap.unique_ofList pairs) fun e he => ?_
  obtain ⟨entry, hentry, hmem⟩ := exists_mem_of_mapM hpairs e (TextMap.mem_of_mem_ofList he)
  obtain ⟨x, hx, rfl⟩ := Option.map_eq_some_iff.mp hmem
  exact h entry.2 x (hgood.members hv _ hentry).2 hx

theorem keeps_anyMap {α : Type} {values : Codec α} (h : values.Keeps good) :
    (anyMap values).Keeps good := by
  intro v w hv hread
  obtain ⟨m, hm, rfl⟩ := Option.map_eq_some_iff.mp hread
  exact hgood.detached (keeps_mapOf hgood h v m hv hm)

end Codec

/-! ## Records -/

namespace Schema

variable {good : Value → Prop} (hgood : Value.Hereditary good) {α : Type} {s : Schema α}
include hgood

/-- **A record is written with the property** when its fields are. -/
theorem good_encode (h : s.fields.Regular) {x : α}
    (hx : s.fields.Each (Codec.WrittenGood good) (s.row x)) : good (s.encode x) := by
  refine hgood.textMap ?_ fun e he => ?_
  · exact Fields.keys_encode_sublist.nodup
      (List.Pairwise.map _ (fun _ _ hne heq => hne (Value.str.inj heq)) h.keys)
  · obtain ⟨key, _, hkey⟩ := Fields.key_of_mem_encode e he
    exact ⟨hkey ▸ rfl, Fields.good_of_each hx e he⟩

theorem keeps_codec (h : s.fields.Regular)
    (hdefault : s.fields.Defaults (Codec.WrittenGood good))
    (hfields : s.fields.All fun _ c => c.Keeps good) : s.codec.Keeps good := by
  intro v x hv hread
  refine good_encode hgood h ?_
  obtain ⟨_, entries, rfl, _, hrow⟩ := decode_eq_ok.mp (toOption_eq_some.mp hread)
  exact Fields.each_of_decode (fun e he => (hgood.members hv e he).2) hfields hdefault hrow

end Schema

section

variable {good : Value → Prop} (hgood : Value.Hereditary good)
include hgood

/-- What stands for absent fields is written with the property. -/
theorem RecordType.defaults_good (t : RecordType) :
    t.schema.fields.Defaults (Codec.WrittenGood good) := by
  have hspec : good (AppSpec.schema.encode {}) :=
    hgood.textMap List.nodup_nil fun _ he => absurd he List.not_mem_nil
  have hinstallSpec : good (InstallSpec.schema.encode {}) := by
    let flags : Entries :=
      [(.str "paused", .bool false), (.str "canceled", .bool false),
        (.str "noopDelete", .bool false)]
    have hflags : good (.map none flags) :=
      hgood.textMap (by decide) (by simp [flags, Value.isText, hgood.flag])
    exact hflags
  cases t <;> repeat' first
    | exact trivial
    | exact hgood.text _
    | exact hgood.flag _
    | exact hspec
    | exact hinstallSpec
    | constructor

/-- To keep the property is closed. -/
theorem Codec.closed_keeps : Closed fun _ c => c.Keeps good where
  text := keeps_text hgood
  any := keeps_any
  anyText := keeps_anyText hgood
  flag := keeps_flag hgood
  count := keeps_count hgood
  map := keeps_mapOf hgood
  anyMap := keeps_anyMap hgood
  list := keeps_list hgood
  record t := Schema.keeps_codec hgood t.regular (t.defaults_good hgood)

/-- **Records of all types keep a hereditary property.** -/
theorem RecordType.keeps (t : RecordType) : t.schema.codec.Keeps good :=
  t.closed (Codec.closed_keeps hgood) fun _ => Codec.keeps_duration hgood

end

end AppSynthesis
