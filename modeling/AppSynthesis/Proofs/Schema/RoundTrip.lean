/-
AppSynthesis.Proofs.Schema.RoundTrip — what is written is read as before.

* `Codec.ReadsBack` — an element is what it is read as after it was written;
  `Codec.Stable`, all elements that values are read as do so.
* `Codec.readsBack_list`, `Codec.readsBack_mapOf`, `Schema.readsBack_codec` — collections
  and records whose parts read back; `Codec.inherited_readsBack`, that this is inherited.
* `Schema.stable_codec` — records of stable fields are stable; `RecordType.stable`, so are
  all records that no duration can be in.

A record reads back because of its keys alone: a document that it was written to has no
other keys, and what stands under each is what the field of that key was written as. All
codecs here are stable but that of durations, which is why a specification of an App reads
back only when its sync period does.
-/
import AppSynthesis.Proofs.Schema.Fields
import AppSynthesis.Proofs.Schema.TextMap
import AppSynthesis.Proofs.Value.Entries

namespace AppSynthesis

/-! ## Codecs -/

namespace Codec

/-- The element is what it is read as after it was written. -/
def ReadsBack {α : Type} (c : Codec α) (x : α) : Prop := c.read (c.write x) = some x

/-- Whatever is read reads back. -/
def Stable {α : Type} (c : Codec α) : Prop := ∀ x, c.Given x → c.ReadsBack x

theorem readsBack_text (s : String) : text.ReadsBack s := rfl

theorem readsBack_anyText (s : String) : anyText.ReadsBack (.str s) := rfl

theorem readsBack_flag (b : Bool) : flag.ReadsBack b := rfl

theorem readsBack_list {α : Type} {items : Codec α} {xs : List α} :
    (list items).ReadsBack xs ↔ ∀ x ∈ xs, items.ReadsBack x := mapM_map_eq_some

/-- A map without repeated keys reads back when its values do. -/
theorem readsBack_mapOf {α : Type} {values : Codec α} {m : TextMap α} (hm : m.Unique)
    (h : ∀ e ∈ m, values.ReadsBack e.2) : (mapOf values).ReadsBack m := by
  have hentries : (m.map fun e => (Value.str e.1, values.write e.2)).mapM
      (fun e => (values.read e.2).map fun x => (e.1.text, x)) = some m :=
    mapM_map_eq_some.mpr fun e he => by
      rw [show values.read (values.write e.2) = some e.2 from h e he]
      rfl
  unfold ReadsBack mapOf
  dsimp only
  rw [hentries, Option.map_some, TextMap.ofList_of_unique hm]

theorem stable_text : text.Stable := fun _ _ => rfl

theorem stable_anyText : anyText.Stable := by
  rintro _ ⟨v, h⟩
  obtain rfl := Option.some.inj h
  rfl

theorem stable_flag : flag.Stable := fun _ _ => rfl

theorem stable_count : count.Stable := fun _ _ => rfl

theorem stable_any : any.Stable := fun _ _ => rfl

theorem stable_list {α : Type} {items : Codec α} (h : items.Stable) : (list items).Stable := by
  rintro xs ⟨v, hread⟩
  obtain ⟨members, _, hmembers⟩ := Option.bind_eq_some_iff.mp hread
  refine readsBack_list.mpr fun x hx => h x ?_
  exact (exists_mem_of_mapM hmembers x hx).imp fun _ => And.right

theorem stable_mapOf {α : Type} {values : Codec α} (h : values.Stable) :
    (mapOf values).Stable := by
  rintro m ⟨v, hread⟩
  cases v <;> try cases hread
  obtain ⟨pairs, hpairs, rfl⟩ := Option.map_eq_some_iff.mp hread
  refine readsBack_mapOf (TextMap.unique_ofList pairs) fun e he => h e.2 ?_
  obtain ⟨entry, _, hentry⟩ := exists_mem_of_mapM hpairs e (TextMap.mem_of_mem_ofList he)
  obtain ⟨x, hx, rfl⟩ := Option.map_eq_some_iff.mp hentry
  exact ⟨entry.2, hx⟩

theorem stable_anyMap {α : Type} {values : Codec α} (h : values.Stable) :
    (anyMap values).Stable := by
  rintro _ ⟨v, hread⟩
  obtain ⟨m, hm, rfl⟩ := Option.map_eq_some_iff.mp hread
  have hback : (mapOf values).read ((mapOf values).write m).detached = some m :=
    stable_mapOf h m ⟨v, hm⟩
  unfold ReadsBack anyMap
  dsimp only
  rw [hback, Option.map_some]

end Codec

/-! ## Records -/

namespace Fields

/-- The keys of a row are among those of its fields, in their order. -/
theorem keys_encode_sublist {α : Type} : ∀ {fields : Fields α} {x : α},
    ((fields.encode x).map (·.1)).Sublist (fields.keys.map Value.str)
  | .done, _ => .slnil
  | .required _ _ _ _, (_, _) => keys_encode_sublist.cons_cons _
  | .defaulted _ _ _ _ _, (_, _) => keys_encode_sublist.cons_cons _
  | .optional _ _ _ rest, (some _, xs) => (@keys_encode_sublist _ rest xs).cons_cons _
  | .optional _ _ _ rest, (none, xs) => (@keys_encode_sublist _ rest xs).cons _
  | .loose _ _ _ _, (_, _) => by
    rw [encode]
    split
    · exact keys_encode_sublist.cons _
    · exact keys_encode_sublist.cons_cons _

/-- A row is written under the keys of its fields. -/
theorem key_of_mem_encode {α : Type} {fields : Fields α} {x : α} (e : Value × Value)
    (he : e ∈ fields.encode x) : ∃ key ∈ fields.keys, e.1 = .str key := by
  obtain ⟨key, hkey, heq⟩ :=
    List.mem_map.mp (keys_encode_sublist.subset (List.mem_map_of_mem he))
  exact ⟨key, hkey, heq.symm⟩

/-- Nothing stands under a key that is none of the fields. -/
theorem get?_encode_of_not_mem {α : Type} {fields : Fields α} {x : α} {key : String}
    (h : key ∉ fields.keys) : Entries.get? (fields.encode x) key = none := by
  unfold Entries.get?
  rw [List.find?_eq_none.mpr, Option.map_none]
  intro e he hkey
  obtain ⟨key', hmem, heq⟩ := key_of_mem_encode e he
  have hstr : Value.str key' = .str key := heq.symm.trans (of_decide_eq_true hkey)
  exact h (Value.str.inj hstr ▸ hmem)

/-- Entries that hold what a field and those after it are written as, the field first. -/
theorem get?_of_written {γ : Type} {key : String} {rest : Fields γ} {xs : γ} {entries : Entries}
    (hnew : key ∉ rest.keys) : ∀ written : Option Value,
      (∀ k ∈ key :: rest.keys, Entries.get? entries k =
        Entries.get? ((written.toList.map fun v => (Value.str key, v)) ++ rest.encode xs) k) →
      Entries.get? entries key = written ∧
        ∀ k ∈ rest.keys, Entries.get? entries k = Entries.get? (rest.encode xs) k
  | none, h => ⟨(h key List.mem_cons_self).trans (get?_encode_of_not_mem hnew),
      fun k hk => h k (List.mem_cons_of_mem _ hk)⟩
  | some v, h => by
    refine ⟨(h key List.mem_cons_self).trans (Entries.get?_cons_self _ _ _), fun k hk => ?_⟩
    have hne : key ≠ k := fun heq => hnew (heq ▸ hk)
    exact (h k (List.mem_cons_of_mem _ hk)).trans (Entries.get?_cons_of_ne hne _ _)

/-- What each field of a row is written as stands under its key; nothing stands there when
the field is absent. -/
def WrittenIn {α : Type} (entries : Entries) : Fields α → α → Prop
  | .done, _ => True
  | .required _ key codec rest, (x, xs) =>
    Entries.get? entries key = some (codec.write x) ∧ rest.WrittenIn entries xs
  | .defaulted _ key codec _ rest, (x, xs) =>
    Entries.get? entries key = some (codec.write x) ∧ rest.WrittenIn entries xs
  | .optional _ key codec rest, (x, xs) =>
    Entries.get? entries key = x.map codec.write ∧ rest.WrittenIn entries xs
  | .loose _ key codec rest, (x, xs) =>
    Entries.get? entries key = (if x = .null then none else some (codec.write x)) ∧
      rest.WrittenIn entries xs

/-- A row is written in all entries that are the same as its own under its keys, such as
those of a longer row. -/
theorem writtenIn_of_encode {α : Type} {entries : Entries} :
    ∀ {fields : Fields α} {x : α}, fields.keys.Nodup →
      (∀ key ∈ fields.keys, Entries.get? entries key = Entries.get? (fields.encode x) key) →
      fields.WrittenIn entries x
  | .done, _, _, _ => trivial
  | .required _ _ codec _, (x, _), hkeys, h => by
    obtain ⟨hnew, hkeys⟩ := List.nodup_cons.mp hkeys
    obtain ⟨hget, hrest⟩ := get?_of_written hnew (some (codec.write x)) h
    exact ⟨hget, writtenIn_of_encode hkeys hrest⟩
  | .defaulted _ _ codec _ _, (x, _), hkeys, h => by
    obtain ⟨hnew, hkeys⟩ := List.nodup_cons.mp hkeys
    obtain ⟨hget, hrest⟩ := get?_of_written hnew (some (codec.write x)) h
    exact ⟨hget, writtenIn_of_encode hkeys hrest⟩
  | .optional _ _ _ _, (none, _), hkeys, h => by
    obtain ⟨hnew, hkeys⟩ := List.nodup_cons.mp hkeys
    obtain ⟨hget, hrest⟩ := get?_of_written hnew none h
    exact ⟨hget, writtenIn_of_encode hkeys hrest⟩
  | .optional _ _ codec _, (some y, _), hkeys, h => by
    obtain ⟨hnew, hkeys⟩ := List.nodup_cons.mp hkeys
    obtain ⟨hget, hrest⟩ := get?_of_written hnew (some (codec.write y)) h
    exact ⟨hget, writtenIn_of_encode hkeys hrest⟩
  | .loose _ _ codec _, (x, _), hkeys, h => by
    obtain ⟨hnew, hkeys⟩ := List.nodup_cons.mp hkeys
    rw [WrittenIn]
    by_cases hnull : x = .null
    · rw [encode, if_pos hnull] at h
      obtain ⟨hget, hrest⟩ := get?_of_written hnew none h
      exact ⟨hget.trans (if_pos hnull).symm, writtenIn_of_encode hkeys hrest⟩
    · rw [encode, if_neg hnull] at h
      obtain ⟨hget, hrest⟩ := get?_of_written hnew (some (codec.write x)) h
      exact ⟨hget.trans (if_neg hnull).symm, writtenIn_of_encode hkeys hrest⟩

/-- **A row of fields is read from where it is written** exactly when all its elements read
back. -/
theorem decode_eq_ok_iff {α : Type} (record : String) {entries : Entries} :
    ∀ {fields : Fields α} {x : α}, fields.Plain → fields.WrittenIn entries x →
      (fields.decode record entries = .ok x ↔ fields.Each @Codec.ReadsBack x)
  | .done, _, _, _ => iff_of_true rfl trivial
  | .required _ _ _ rest, (_, _), hplain, h => by
    have hplain : rest.Plain := hplain
    rw [decode_required, decode_eq_ok_iff record hplain h.2, h.1]
    simp [Each, Codec.ReadsBack]
  | .defaulted _ _ _ _ _, (_, _), hplain, h => by
    rw [decode_defaulted, decode_eq_ok_iff record hplain.2 h.2, h.1]
    simp [Each, Codec.ReadsBack]
  | .optional _ _ _ _, (none, _), hplain, h => by
    rw [decode_optional, decode_eq_ok_iff record hplain.2 h.2, Entries.getD, h.1]
    simp [Each]
  | .optional _ _ _ _, (some y, _), hplain, h => by
    rw [decode_optional, decode_eq_ok_iff record hplain.2 h.2, Entries.getD, h.1]
    simp [Each, Codec.ReadsBack, hplain.1 y]
  | .loose _ _ _ _, (x, _), hplain, h => by
    rw [decode_loose, decode_eq_ok_iff record hplain.2 h.2, Entries.getD, h.1]
    by_cases hnull : x = .null
    · simp [Each, hnull]
    · simp [Each, Codec.ReadsBack, hnull, hplain.1.write hnull]

end Fields

namespace Schema

variable {α : Type} {s : Schema α} {x : α}

theorem unknownKeys_encode : s.unknownKeys (s.fields.encode (s.row x)) = [] := by
  refine List.filter_eq_nil_iff.mpr fun key hkey => ?_
  obtain ⟨e, he, rfl⟩ := List.mem_map.mp hkey
  obtain ⟨key, hmem, heq⟩ := Fields.key_of_mem_encode e he
  rw [heq]
  simpa using hmem

theorem writtenIn_encode (h : s.fields.Regular) :
    s.fields.WrittenIn (s.fields.encode (s.row x)) (s.row x) :=
  Fields.writtenIn_of_encode h.keys fun _ _ => rfl

/-- **A record reads back** exactly when all its elements do. -/
theorem decode_encode_iff (h : s.fields.Regular) :
    s.decode (s.encode x) = .ok x ↔ s.fields.Each @Codec.ReadsBack (s.row x) := by
  rw [← Fields.decode_eq_ok_iff s.name h.plain (writtenIn_encode h)]
  unfold decode encode
  dsimp only
  rw [unknownKeys_encode]
  rcases s.fields.decode s.name (s.fields.encode (s.row x)) with e | row
  · simp [Functor.map, Except.map]
  · simp only [Functor.map, Except.map, Except.ok.injEq]
    exact ⟨fun heq => heq ▸ (s.row_build row).symm, fun heq => heq ▸ s.build_row x⟩

theorem readsBack_codec (h : s.fields.Regular) :
    s.codec.ReadsBack x ↔ s.fields.Each @Codec.ReadsBack (s.row x) := by
  rw [← decode_encode_iff h]
  exact toOption_eq_some

/-- What a record is read from has given all its elements. -/
theorem each_given (h : s.fields.Regular) {v : Value} (hv : s.decode v = .ok x) :
    s.fields.Each @Codec.Given (s.row x) := by
  obtain ⟨_, _, _, _, hrow⟩ := decode_eq_ok.mp hv
  exact Fields.each_given h.plain hrow

theorem each_given_of_codec (h : s.fields.Regular) (hx : s.codec.Given x) :
    s.fields.Each @Codec.Given (s.row x) := by
  obtain ⟨v, hread⟩ := hx
  exact each_given h (toOption_eq_some.mp hread)

/-- Records of stable fields are stable. -/
theorem stable_codec (h : s.fields.Regular) (hfields : s.fields.All @Codec.Stable) :
    s.codec.Stable := fun _ hx =>
  (readsBack_codec h).mpr ((each_given_of_codec h hx).mono hfields)

end Schema

namespace Codec

/-- To be stable is closed. -/
theorem closed_stable : Closed @Stable where
  text := stable_text
  any := stable_any
  anyText := stable_anyText
  flag := stable_flag
  count := stable_count
  map := stable_mapOf
  anyMap := stable_anyMap
  list := stable_list
  record t := Schema.stable_codec t.regular

end Codec

/-- Records that no duration can be in are stable. -/
theorem RecordType.stable (t : RecordType) (h : t.isTimed = false) : t.schema.codec.Stable :=
  t.closed Codec.closed_stable fun htimed => absurd (h.symm.trans htimed) nofun

/-- To read back is inherited. -/
theorem Codec.inherited_readsBack : Codec.Inherited @Codec.ReadsBack where
  text := readsBack_text
  anyText := readsBack_anyText
  flag := readsBack_flag
  list := readsBack_list
  record t := Schema.readsBack_codec t.regular

end AppSynthesis
