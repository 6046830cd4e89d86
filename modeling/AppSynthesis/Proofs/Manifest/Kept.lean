/-
AppSynthesis.Proofs.Manifest.Kept — no part of a specification is dropped.

* `Layout.Keeps` — that nothing of a value is lost where it is written.
* `Codec.Laid.keeps` — nothing is lost of what is read by a codec and written again.
* `AppSpec.decode_keeps` — so nothing is lost at any place of a specification that is read,
  and a key that a record does not have is refused wherever it stands.

A value that is read at one place is written at the same place (`Codec.Laid.at?`). What is
added here is what reading and writing makes of it there, for each way it may be typed.
-/
import AppSynthesis.Proofs.Manifest.Layout

namespace AppSynthesis

/-! ## What is kept -/

/-- Nothing of a value is lost in what is written for it: a map that is carried is the same,
records have the same keys, apart from some that are null, and lists of records the same
length and order. -/
def Layout.Keeps : Layout → Value → Value → Prop
  | .plain, _, _ => True
  | .carried, v, w => ∃ origin entries, v = .map origin entries ∧ w = .map none entries
  | .record _, v, w => ∃ origin entries written, v = .map origin entries ∧ w = .map none written ∧
    (∀ e ∈ entries, e.2 ≠ .null → e.1 ∈ written.map (·.1)) ∧
    ∀ e ∈ written, e.1 ∈ entries.map (·.1)
  | .list items, v, w => ∀ origin members, v = .list origin members →
    ∃ written, w = .list none written ∧ written.length = members.length ∧
      ∀ t, items = .record t → ∀ (i : Nat) (u : Value), members[i]? = some u →
        ∃ r, t.schema.decode u = .ok r ∧ written[i]? = some (t.schema.encode r)

/-! ## Reading and writing -/

/-- Entries with text keys come from pairs. -/
theorem Entries.exists_pairs : ∀ {entries : Entries}, (∀ e ∈ entries, e.1.isText = true) →
    ∃ pairs : TextMap Value, entries = pairs.map fun e => (.str e.1, e.2)
  | [], _ => ⟨[], rfl⟩
  | (.str key, v) :: rest, h => by
    obtain ⟨pairs, rfl⟩ := exists_pairs fun e he => h e (List.mem_cons_of_mem _ he)
    exact ⟨(key, v) :: pairs, rfl⟩
  | (.null, _) :: _, h | (.bool _, _) :: _, h | (.int _, _) :: _, h | (.float _, _) :: _, h
  | (.stamp _ _, _) :: _, h | (.list _ _, _) :: _, h | (.map _ _, _) :: _, h =>
    absurd (h _ List.mem_cons_self) nofun

namespace Codec

/-- A map with text keys is written as it was. -/
theorem write_valueMap {v : Value} {m : TextMap Value} (hv : v.isJson = true)
    (h : valueMap.read v = some m) :
    ∃ origin entries, v = .map origin entries ∧ valueMap.write m = .map none entries := by
  cases v <;> try cases h
  rename_i origin entries
  obtain ⟨hkeys, hall⟩ := Value.entriesJson_iff.mp hv
  obtain ⟨pairs, rfl⟩ := Entries.exists_pairs fun e he => (hall e he).1
  have hunique : pairs.Unique := by
    rw [List.map_map] at hkeys
    exact List.pairwise_map.mpr ((List.pairwise_map.mp hkeys).imp fun hne heq =>
      hne (congrArg Value.str heq))
  have hback : valueMap.read (valueMap.write pairs) = some pairs :=
    readsBack_mapOf hunique fun _ _ => rfl
  obtain rfl := Option.some.inj (hback.symm.trans h)
  exact ⟨origin, _, rfl, rfl⟩

/-- **Nothing is lost of what is read and written again.** -/
theorem Laid.keeps {l : Layout} {α : Type} {c : Codec α} (hlaid : Laid l α c) {v : Value} {x : α}
    (hv : v.isJson = true) (hread : c.read v = some x) : l.Keeps v (c.write x) := by
  cases hlaid with
  | carried => exact write_valueMap hv hread
  | @record t ht =>
    obtain ⟨origin, entries, rfl, hknown, hfields⟩ :=
      Schema.decode_eq_ok.mp (toOption_eq_some.mp hread)
    obtain ⟨hkeys, hall⟩ := Value.entriesJson_iff.mp hv
    refine ⟨origin, entries, _, rfl, rfl, fun e he hne => ?_,
      Fields.key_of_written (t.laid ht) hfields⟩
    obtain ⟨k, w⟩ := e
    cases k <;> try cases (hall _ he).1
    rename_i key
    have hkey : key ∈ t.schema.fields.keys :=
      Schema.mem_keys_of_known hknown (List.mem_map.mpr ⟨_, he, rfl⟩)
    obtain ⟨_, _, _, _, _, hwritten⟩ := Fields.read_key (Entries.get?_of_mem hkeys he) hne
      (t.laid ht) hfields (Schema.writtenIn_encode t.regular) hkey
    exact List.mem_map.mpr ⟨_, Entries.mem_of_get? hwritten, rfl⟩
  | @list _ _ items hitems =>
    rintro origin members rfl
    refine ⟨_, rfl, (List.length_map _).trans (length_of_mapM hread), ?_⟩
    rintro t rfl i u hu
    cases hitems with
    | @record t ht =>
      obtain ⟨r, hr, hdecode⟩ := getElem?_of_mapM hread hu
      refine ⟨r, toOption_eq_some.mp hdecode, ?_⟩
      rw [List.getElem?_map, hr]
      rfl
  | _ => trivial

end Codec

/-! ## Refusing -/

/-- Whether a fault is one of a field. -/
def DecodeError.isOfField : DecodeError → Bool
  | .missing _ _ _ => true
  | .invalid _ _ _ _ => true
  | _ => false

namespace Fields

/-- Nothing goes wrong but with fields. -/
def OnlyFields {α : Type} (m : Except DecodeError α) : Prop :=
  ∀ e, m = .error e → e.isOfField = true

theorem onlyFields_ok {α : Type} (x : α) : OnlyFields (.ok x) := nofun

theorem onlyFields_missing {α : Type} (record name label : String) :
    @OnlyFields α (.error (.missing record name label)) := by
  intro e h
  cases h
  rfl

theorem onlyFields_readField {β : Type} (record name label : String) (codec : Codec β)
    (v : Value) : OnlyFields (readField record name label codec v) := by
  intro e h
  unfold readField at h
  split at h <;> cases h
  rfl

theorem onlyFields_map {β γ : Type} {m : Except DecodeError β} {f : β → γ} (h : OnlyFields m) :
    OnlyFields (f <$> m) := by
  rcases m with e | y
  · rintro _ ⟨⟩
    exact h e rfl
  · nofun

theorem onlyFields_pair {β γ : Type} {m : Except DecodeError β} {n : Except DecodeError γ}
    (hm : OnlyFields m) (hn : OnlyFields n) :
    OnlyFields (m >>= fun a => n >>= fun b => pure (a, b)) := by
  rcases m with e | a
  · rintro _ ⟨⟩
    exact hm e rfl
  · rcases n with e | b
    · rintro _ ⟨⟩
      exact hn e rfl
    · nofun

/-- Nothing goes wrong in a row of fields but with the fields. -/
theorem onlyFields_decode {record : String} {entries : Entries} {α : Type} :
    ∀ {fields : Fields α}, OnlyFields (fields.decode record entries)
  | .done => onlyFields_ok ()
  | .required _ _ _ _ => by
    rw [decode]
    split
    · exact onlyFields_pair (onlyFields_missing _ _ _) onlyFields_decode
    · exact onlyFields_pair (onlyFields_readField _ _ _ _ _) onlyFields_decode
  | .defaulted _ _ _ _ _ => by
    rw [decode]
    split
    · exact onlyFields_pair (onlyFields_ok _) onlyFields_decode
    · exact onlyFields_pair (onlyFields_readField _ _ _ _ _) onlyFields_decode
  | .optional _ _ _ _ => by
    rw [decode]
    split
    · exact onlyFields_pair (onlyFields_ok _) onlyFields_decode
    · exact onlyFields_pair (onlyFields_map (onlyFields_readField _ _ _ _ _)) onlyFields_decode
  | .loose _ _ _ _ => by
    rw [decode]
    split
    · exact onlyFields_pair (onlyFields_ok _) onlyFields_decode
    · exact onlyFields_pair (onlyFields_readField _ _ _ _ _) onlyFields_decode

end Fields

/-- A map with text keys that is no record of a type is refused, and nothing else goes wrong. -/
theorem parsePart_eq_error {α : Type} {s : Schema α} {owner : String} {origin : Origin}
    {entries : Entries} (hkeys : ∀ e ∈ entries, e.1.isText = true)
    (h : ∀ x, s.decode (.map origin entries) ≠ .ok x) :
    ∃ cause, parsePart s owner (.map origin entries) =
      .error (.input (.invalidPart s.name owner cause)) := by
  unfold parsePart Schema.decode at *
  dsimp only at *
  rcases hunknown : s.unknownKeys entries with _ | ⟨key, rest⟩
  · rw [hunknown] at h
    rcases hfields : s.fields.decode s.name entries with e | row
    · have he := Fields.onlyFields_decode e hfields
      cases e <;> try cases he
      all_goals exact ⟨_, rfl⟩
    · exact absurd (map_eq_ok.mpr ⟨row, hfields, rfl⟩) (h (s.build row))
  · have hall : (key :: rest).all Value.isText = true := by
      refine List.all_eq_true.mpr fun k hk => ?_
      obtain ⟨e, he, rfl⟩ := List.mem_map.mp (List.mem_filter.mp (hunknown ▸ hk)).1
      exact hkeys e he
    exact ⟨_, if_pos hall⟩

/-- **No part of a specification is dropped.** Whatever is read as a specification is written
so that at each place what stands there is kept: records have the keys that are not null and no
others, lists of records their length and order, and maps that are carried all of their
content. A key that a record does not have, null or not, is refused at any place. -/
theorem AppSpec.decode_keeps {d : Value} (hd : d.isJson = true) (owner : String) :
    (∀ x, AppSpec.schema.decode d = .ok x → ∀ p l u, (Layout.record .appSpec).at? p = some l →
      d.at? p = some u → u ≠ .null →
      ∃ w, (AppSpec.schema.encode x).at? p = some w ∧ l.Keeps u w) ∧
    ∀ p t origin entries key, (Layout.record .appSpec).at? p = some (.record t) →
      d.at? p = some (.map origin entries) → key ∈ entries.map (·.1) →
      key ∉ t.schema.fields.keys.map Value.str →
      ∃ cause, parsePart AppSpec.schema owner d =
        .error (.input (.invalidPart AppSpec.schema.name owner cause)) := by
  have hlaid : Codec.Laid (.record .appSpec) _ AppSpec.schema.codec := .record rfl
  constructor
  · intro x hx p l u hl hu hne
    obtain ⟨_, c, y, hlaid', hread, hat⟩ := hlaid.at? hl (toOption_eq_some.mpr hx) hu hne
    exact ⟨_, hat, hlaid'.keeps (Value.isJson_at hd hu) hread⟩
  · intro p t origin entries key hl hu hkey hunknown
    have hnot : ∀ x, AppSpec.schema.decode d ≠ .ok x := by
      intro x hx
      obtain ⟨_, c, _, hlaid', hread, _⟩ := hlaid.at? hl (toOption_eq_some.mpr hx) hu nofun
      cases hlaid' with
      | record _ =>
        obtain ⟨_, _, hmap, hknown, _⟩ := Schema.decode_eq_ok.mp (toOption_eq_some.mp hread)
        cases hmap
        obtain ⟨e, he, rfl⟩ := List.mem_map.mp hkey
        obtain ⟨name, hname⟩ := Value.exists_str ((Value.entriesJson_iff.mp
          (Value.isJson_at hd hu)).2 e he).1
        refine hunknown (List.mem_map.mpr ⟨name, ?_, hname.symm⟩)
        exact Schema.mem_keys_of_known hknown (hname ▸ hkey)
    obtain ⟨origin', entries', rfl⟩ : ∃ origin' entries', d = .map origin' entries' := by
      rcases p with _ | ⟨name | i, rest⟩
      · exact ⟨_, _, Option.some.inj hu⟩
      · obtain ⟨origin', entries', _, rfl, _⟩ := Value.at?_key hu
        exact ⟨_, _, rfl⟩
      · cases hl
    exact parsePart_eq_error (fun e he => ((Value.entriesJson_iff.mp hd).2 e he).1) hnot

/-- A selection of versions three records deep is kept, and so are the two steps of fetching
around it. A key that the credentials of a chart repository do not have is refused, though it
is null. -/
theorem AppSpec.decode_keeps_nested :
    ∃ (d bad : Value) (x : AppSpec) (selection : Value), d.isJson = true ∧ bad.isJson = true ∧
      AppSpec.schema.decode d = .ok x ∧
      d.at? [.key "fetch", .item 1, .key "git", .key "refSelection"] = some selection ∧
      (∃ w, (AppSpec.schema.encode x).at? [.key "fetch", .item 1, .key "git",
        .key "refSelection"] = some w ∧ Layout.carried.Keeps selection w) ∧
      (∃ u w, d.at? [.key "fetch"] = some u ∧
        (AppSpec.schema.encode x).at? [.key "fetch"] = some w ∧
        (Layout.list (.record .fetchStep)).Keeps u w) ∧
      ∃ cause, parsePart AppSpec.schema "App apps/web" bad =
        .error (.input (.invalidPart "AppSpec" "App apps/web" cause)) := by
  let map (entries : List (String × Value)) : Value :=
    .map (some 1) (entries.map fun e => (.str e.1, e.2))
  let list (items : List Value) : Value := .list (some 2) items
  let selection := map [("semver", map [("prereleases", map [])]), ("tags", list [.null, .int 1])]
  let d := map [("fetch", list [map [("image", map [("url", .str "registry/web")])],
      map [("git", map [("url", .str "git"), ("ref", .null), ("refSelection", selection)]),
        ("path", .str "web")]]),
    ("deploy", list [map [("kapp", map [("wait", .bool false)])]]), ("paused", .bool false)]
  let bad := map [("fetch", list [map [("helmChart", map [("repository", map [("secretRef",
    map [("name", .str "charts"), ("key", .null)])])])]])]
  obtain ⟨x, hx⟩ : ∃ x, AppSpec.schema.decode d = .ok x := ⟨_, rfl⟩
  have hd : d.isJson = true := by decide +kernel
  have hbad : bad.isJson = true := by decide +kernel
  have hkeeps := (AppSpec.decode_keeps hd "").1 x hx
  exact ⟨d, bad, x, selection, hd, hbad, hx, rfl, hkeeps _ _ _ rfl rfl nofun,
    ⟨_, (hkeeps [.key "fetch"] _ _ rfl rfl nofun).imp fun _ hw => ⟨rfl, hw⟩⟩,
    (AppSpec.decode_keeps hbad "App apps/web").2
      [.key "fetch", .item 0, .key "helmChart", .key "repository", .key "secretRef"] .objectRef
      _ _ (.str "key") rfl rfl (by decide) (by decide)⟩

end AppSynthesis
